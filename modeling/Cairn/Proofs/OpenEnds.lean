import Cairn.Proofs.ClosedPrefixes
import Mathlib

set_option autoImplicit false

/-!
# Open ends

The end of a text closes everything that is open. A text that reads up to its end has a terminator:
at most one character, which completes its last piece, and a brace for every block that is open
there. With its terminator the text is closed, and it still reads as the same tokens.
-/

namespace Cairn

namespace Reading

variable {isOperator : Char → Bool} {pos : Nat} {c : Char} {cs rest : List Char}
  {tokens : List Value}

/-- The character that a piece at the end of a text lacks. Either character that closes a comment
would do. -/
def Piece.missing : Piece → List Char
  | .enclosed opener _ none => (closers opener).take 1
  | .enclosed _ _ (some _) | .run _ | .single _ => []

/-- What may be missing from the last piece of a text. -/
def marks : List String := ["", ")", "\"", "]", "\n"]

/-- A text with text after its first piece goes on in the same way before more text. -/
theorem cut_append (more : (cut c cs).2 ≠ []) (back : List Char) :
    cut c (cs ++ back) = ((cut c cs).1, (cut c cs).2 ++ back) := by
  have stops : isNumeric c = true → ∀ d ∈ ((cut c cs).2 ++ back).head?, isNumeric d = false := by
    intro numeric d first
    rw [List.head?_append_of_ne_nil _ more] at first
    exact (cut_run numeric cs).2 d first
  obtain ⟨tail, text, taken⟩ := cut_stable more stops
  have whole := cut_text c cs
  rw [text, List.cons_append, List.cons_inj_right] at whole
  rw [← List.append_assoc, whole] at taken
  exact taken

/-- With the character that it lacks, the only piece of a text is a piece of the same meaning, and
what is behind that character does not belong to it. -/
def Piece.Completed (isOperator : Char → Bool) (c : Char) (cs : List Char) (piece : Piece) : Prop :=
  ∀ back, ∃ complete,
    cut c (cs ++ (piece.missing ++ '\x7d' :: back)) = (complete, '\x7d' :: back) ∧
    complete.text = piece.text ++ piece.missing ∧
    ∀ pos, complete.meaning isOperator pos = piece.meaning isOperator pos

theorem completed_run (isOperator : Char → Bool) (numeric : isNumeric c = true)
    (inside : ∀ d ∈ cs, isNumeric d = true) :
    (Piece.run (c :: cs)).Completed isOperator c cs := by
  intro back
  have stops : ∀ d ∈ ('\x7d' :: back).head?, isNumeric d = false := by
    rintro d ⟨⟩
    rfl
  refine ⟨.run (c :: cs), ?_, (List.append_nil _).symm, fun _ => rfl⟩
  rw [Piece.missing, List.nil_append, cut, if_pos numeric, takeWhile_of_stop inside stops,
    dropWhile_of_stop inside stops]

theorem completed_enclosed (isOperator : Char → Bool) (bare : isNumeric c = false)
    {inside : List Char} {closer : Option Char} (opens : closers c ≠ [])
    (free : ∀ d ∈ inside, (!closes c d) = true)
    (ends : ∀ d ∈ closer, closes c d = true) :
    (Piece.enclosed c inside closer).Completed isOperator c (inside ++ closer.toList) := by
  have complete : ∀ (d : Char), closes c d = true → ∀ back,
      cut c (inside ++ d :: '\x7d' :: back) = (.enclosed c inside (some d), '\x7d' :: back) := by
    intro d closed back
    have stops : ∀ e ∈ (d :: '\x7d' :: back).head?, (!closes c e) = false := by
      rintro e ⟨⟩
      rw [closed]
      rfl
    rw [cut, if_neg (by simp [bare]), if_neg opens, takeWhile_of_stop free stops,
      dropWhile_of_stop free stops]
    rfl
  intro back
  cases closer with
  | none =>
    -- The first of the closing characters is the missing one.
    obtain ⟨d, others, shape⟩ := List.exists_cons_of_ne_nil opens
    have missing : (Piece.enclosed c inside none).missing = [d] := by
      simp [Piece.missing, shape]
    refine ⟨.enclosed c inside (some d), ?_, ?_, fun _ => rfl⟩
    · rw [missing]
      simpa using complete d (by simp [closes, shape]) back
    · rw [missing]
      simp [Piece.text]
  | some d =>
    refine ⟨.enclosed c inside (some d), ?_, by simp [Piece.missing], fun _ => rfl⟩
    simpa [Piece.missing] using complete d (ends d rfl) back

theorem completed_cut (isOperator : Char → Bool) (last : (cut c cs).2 = []) :
    (cut c cs).1.Completed isOperator c cs := by
  by_cases numeric : isNumeric c = true
  · have first : (cut c cs).1 = .run (c :: cs.takeWhile isNumeric) := by rw [cut, if_pos numeric]
    rw [cut, if_pos numeric] at last
    have inside : ∀ d ∈ cs, isNumeric d = true := List.dropWhile_eq_nil_iff.mp last
    rw [first, List.takeWhile_eq_self_iff.mpr inside]
    exact completed_run isOperator numeric inside
  by_cases opens : closers c = []
  · have first : (cut c cs).1 = .single c := by rw [cut, if_neg numeric, if_pos opens]
    rw [cut, if_neg numeric, if_pos opens] at last
    cases last
    rw [first]
    intro back
    refine ⟨.single c, ?_, rfl, fun _ => rfl⟩
    rw [cut, if_neg numeric, if_pos opens]
    rfl
  have first : (cut c cs).1 = .enclosed c (cs.takeWhile (!closes c ·))
      (cs.dropWhile (!closes c ·)).head? := by rw [cut, if_neg numeric, if_neg opens]
  rw [cut, if_neg numeric, if_neg opens] at last
  have single : (cs.dropWhile (!closes c ·)).head?.toList = cs.dropWhile (!closes c ·) := by
    cases shape : cs.dropWhile (!closes c ·) with
    | nil => rfl
    | cons d rest =>
      simp only [shape, List.tail_cons] at last
      rw [last]
      rfl
  have parts := List.takeWhile_append_dropWhile (p := (!closes c ·)) (l := cs)
  rw [← single] at parts
  have ends : ∀ d ∈ (cs.dropWhile (!closes c ·)).head?, closes c d = true := by
    intro d member
    have head := List.head?_dropWhile_not (!closes c ·) cs
    rw [Option.mem_def.mp member] at head
    simpa using head
  have free : ∀ d ∈ cs.takeWhile (!closes c ·), (!closes c d) = true := by
    intro d member
    exact List.mem_takeWhile_imp (p := (!closes c ·)) member
  have completed :=
    completed_enclosed isOperator (by simpa using numeric) opens free ends
  rw [first]
  rwa [parts] at completed

theorem missing_mem_marks (piece : Piece) : String.ofList piece.missing ∈ marks := by
  cases piece with
  | run => simp [Piece.missing, marks]
  | single => simp [Piece.missing, marks]
  | enclosed opener inside closer =>
    cases closer with
    | some => simp [Piece.missing, marks]
    | none =>
      simp only [Piece.missing, closers]
      split_ifs <;> decide

/-- What ends a text properly: a mark, and a brace for each of `depth` open blocks. -/
def terminator (mark : String) (depth : Nat) : List Char :=
  mark.toList ++ List.replicate depth '\x7d'

theorem terminator_succ (mark : String) (depth : Nat) :
    terminator mark (depth + 1) = terminator mark depth ++ ['\x7d'] := by
  rw [terminator, terminator, List.replicate_succ', List.append_assoc]

/-- With `ending` behind it, a text reads as `tokens` up to any closing brace. -/
def Completes (isOperator : Char → Bool) (pos : Nat) (cs ending : List Char)
    (tokens : List Value) : Prop :=
  ∀ back, Reads isOperator pos (cs ++ (ending ++ '\x7d' :: back))
    (.ok ⟨tokens, pos + (cs ++ ending).length, '\x7d' :: back⟩)

theorem Reads.of_nil {s : Stretch} (reads : Reads isOperator pos [] (.ok s)) :
    s = ⟨[], pos, []⟩ := by
  cases reads
  rfl

/-- A piece before a text that has a terminator stays as it is; one that nothing follows is
completed by what it lacks. -/
theorem exists_terminator {meaning : Meaning}
    (means : (cut c cs).1.meaning isOperator pos = meaning) {s : Stretch}
    (reads : Reads isOperator (pos + (cut c cs).1.text.length) (cut c cs).2 (.ok s))
    (later : ∃ mark ∈ marks, ∃ depth,
      Completes isOperator (pos + (cut c cs).1.text.length) (cut c cs).2 (terminator mark depth)
        s.tokens) :
    ∃ mark ∈ marks, ∃ depth, ∀ back, ∃ next rest,
      lexeme isOperator pos c (cs ++ (terminator mark depth ++ '\x7d' :: back)) =
        meaning.lexeme next rest ∧
      Reads isOperator next rest
        (.ok ⟨s.tokens, pos + (c :: cs ++ terminator mark depth).length, '\x7d' :: back⟩) := by
  have whole := congrArg List.length (cut_text c cs)
  rw [List.length_append] at whole
  by_cases last : (cut c cs).2 = []
  · rw [last] at reads
    obtain rfl := reads.of_nil
    refine ⟨_, missing_mem_marks (cut c cs).1, 0, fun back => ⟨_, _, ?_, .closing rfl⟩⟩
    obtain ⟨piece, taken, text, same⟩ := completed_cut isOperator last back
    have length : pos + piece.text.length =
        pos + (c :: cs ++ terminator (String.ofList (cut c cs).1.missing) 0).length := by
      rw [text, List.length_append, List.length_append, ← whole, last]
      simp [terminator]
    have ending : terminator (String.ofList (cut c cs).1.missing) 0 = (cut c cs).1.missing := by
      simp [terminator]
    rw [← length, ending, lexeme_eq_cut, taken]
    exact congrArg _ ((same pos).trans means)
  · obtain ⟨mark, member, depth, completes⟩ := later
    refine ⟨mark, member, depth, fun back => ⟨pos + (cut c cs).1.text.length,
      (cut c cs).2 ++ (terminator mark depth ++ '\x7d' :: back), ?_, ?_⟩⟩
    · rw [lexeme_eq_cut, cut_append last, means]
    · have length : pos + (c :: cs ++ terminator mark depth).length =
          pos + (cut c cs).1.text.length + ((cut c cs).2 ++ terminator mark depth).length := by
        rw [List.length_append, List.length_append, ← whole]
        omega
      rw [length]
      exact completes back

/-- A block that the end of the text closes is closed by one more brace. -/
theorem Completes.open_block {ending : List Char}
    (inside : Completes isOperator (pos + 1) cs ending tokens) :
    Completes isOperator pos ('\x7b' :: cs) (ending ++ ['\x7d']) [.block tokens] := by
  intro back
  have length : pos + ('\x7b' :: cs ++ (ending ++ ['\x7d'])).length =
      pos + 1 + (cs ++ ending).length + 1 := by
    simp only [List.length_append, List.length_cons, List.length_nil]
    omega
  have closed := Reads.block (c := '\x7b') rfl (inside ('\x7d' :: back)) (.closing rfl)
  rw [List.append_assoc, List.singleton_append, length]
  exact closed

/-- A block that a brace closes stays as it is. -/
theorem Completes.closed_block {inner : Stretch} {before tail ending : List Char}
    (inside : Reads isOperator (pos + 1) (before ++ '\x7d' :: tail) (.ok inner))
    (rest : inner.rest = '\x7d' :: tail)
    (later : Completes isOperator (pos + 1 + before.length + 1) tail ending tokens) :
    Completes isOperator pos ('\x7b' :: (before ++ '\x7d' :: tail)) ending
      (.block inner.tokens :: tokens) := by
  intro back
  have seam : Seam before ('\x7d' :: (tail ++ (ending ++ '\x7d' :: back))) := by
    rintro _ _ d ⟨⟩ _
    rfl
  have again := inside.append (by simp [rest]) (by rw [rest]) seam (.closing rfl)
  have whole := Reads.block (c := '\x7b') rfl again (later back)
  have length : pos + ('\x7b' :: (before ++ '\x7d' :: tail) ++ ending).length =
      pos + 1 + before.length + 1 + (tail ++ ending).length := by
    simp only [List.length_append, List.length_cons]
    omega
  rw [List.cons_append, List.append_assoc, List.cons_append, length]
  simpa [Stretch.prependAll, Stretch.prepend, Except.map] using whole

/-- A stretch up to the end of the text has a terminator. -/
theorem Reads.exists_completes {s : Stretch} (reads : Reads isOperator pos cs (.ok s))
    (toEnd : s.rest = []) :
    ∃ mark ∈ marks, ∃ depth, Completes isOperator pos cs (terminator mark depth) s.tokens := by
  generalize outcome : Except.ok s = result at reads
  induction reads generalizing s with
  | @finish pos =>
    cases outcome
    exact ⟨"", by decide, 0, fun back => .closing rfl⟩
  | @token pos c cs value next rest result isToken reads inductionHypothesis =>
    cases result with
    | error => cases outcome
    | ok others =>
      cases outcome
      obtain ⟨means, rfl, rfl⟩ := lexeme_token_cut isToken
      obtain ⟨mark, member, depth, steps⟩ :=
        exists_terminator means reads (inductionHypothesis (s := others) toEnd rfl)
      refine ⟨mark, member, depth, fun back => ?_⟩
      obtain ⟨next, rest, found, reads⟩ := steps back
      exact .token found reads
  | @blank pos c cs next rest result isBlank reads inductionHypothesis =>
    cases outcome
    obtain ⟨means, rfl, rfl⟩ := lexeme_blank_cut isBlank
    obtain ⟨mark, member, depth, steps⟩ :=
      exists_terminator means reads (inductionHypothesis toEnd rfl)
    refine ⟨mark, member, depth, fun back => ?_⟩
    obtain ⟨next, rest, found, reads⟩ := steps back
    exact .blank found reads
  | @block pos c cs inner result isOpening inside reads innerHypothesis laterHypothesis =>
    cases result with
    | error => cases outcome
    | ok others =>
      cases outcome
      obtain rfl := eq_brace (congrArg Lexeme.brace? isOpening)
      cases shape : inner.rest with
      | nil =>
        rw [shape] at reads
        obtain rfl := reads.of_nil
        obtain ⟨mark, member, depth, completes⟩ := innerHypothesis shape rfl
        refine ⟨mark, member, depth + 1, ?_⟩
        rw [terminator_succ]
        exact completes.open_block
      | cons brace tail =>
        obtain rfl := inside.rest_closes brace (by rw [shape]; rfl)
        obtain ⟨before, text⟩ := inside.rest_suffix
        have spans := inside.spans.2
        rw [← text, shape, List.length_append] at spans
        have after : inner.after = pos + 1 + before.length + 1 := by
          simp only [Stretch.after, shape, List.isEmpty_cons, Bool.false_eq_true, if_false]
          omega
        obtain ⟨mark, member, depth, completes⟩ := laterHypothesis (s := others) toEnd rfl
        rw [shape, after] at completes
        rw [shape] at text
        subst text
        exact ⟨mark, member, depth, completes.closed_block inside shape⟩
  | badBlock => cases outcome
  | closing isClosing =>
    cases outcome
    cases toEnd
  | invalid => cases outcome

end Reading

open Reading

/-- The end of a text closes everything that is open: whatever text reads up to its end is closed by
at most one character and some braces, and reads as the same tokens then. -/
theorem read_closed_at_end {isOperator : Char → Bool} {source : String} {tokens : List Value}
    (toEnd : read isOperator source = .ok ⟨source.length, tokens⟩) :
    ∃ mark ∈ ["", ")", "\"", "]", "\n"], ∃ depth,
      let closed := source ++ mark ++ String.ofList (List.replicate depth '\x7d')
      read isOperator (closed ++ "\x7d") = .ok ⟨closed.length, tokens⟩ ∧
        read isOperator closed = .ok ⟨closed.length, tokens⟩ := by
  obtain ⟨s, reads, same⟩ := (read_eq_ok_iff _ _ _).mp toEnd
  obtain ⟨cursor, rfl⟩ := Reading.mk.inj same
  have spans := reads.spans.2
  have empty : s.rest = [] := by
    apply List.length_eq_zero_iff.mp
    rw [String.length_toList] at spans
    omega
  obtain ⟨mark, member, depth, completes⟩ := reads.exists_completes empty
  refine ⟨mark, member, depth, ?_⟩
  have text : (source ++ mark ++ String.ofList (List.replicate depth '\x7d')).toList =
      source.toList ++ terminator mark depth := by
    simp [terminator]
  have closed : read isOperator
      (source ++ mark ++ String.ofList (List.replicate depth '\x7d') ++ "\x7d") =
        .ok ⟨(source ++ mark ++ String.ofList (List.replicate depth '\x7d')).length, s.tokens⟩ := by
    rw [read_eq_ok_iff, String.toList_append, text, ← String.length_toList, text]
    have closedReads := completes []
    rw [Nat.zero_add, ← List.append_assoc] at closedReads
    exact ⟨_, closedReads, rfl⟩
  refine ⟨closed, ?_⟩
  have again := read_append_of_closed closed (b := "") (by rintro _ _ d ⟨⟩)
  simpa [read, ofChars, stretch] using again

/-- A name without its bracket inside two blocks, after a block that is closed. -/
theorem read_closed_at_end_nested :
    ∃ tokens, read (· = '+') "\x7b1\x7d\x7b+\x7b[\x7d" =
        .ok ⟨"\x7b1\x7d\x7b+\x7b[\x7d".length, tokens⟩ ∧
      ∃ mark ∈ ["", ")", "\"", "]", "\n"], ∃ depth,
        let closed := "\x7b1\x7d\x7b+\x7b[\x7d" ++ mark ++
          String.ofList (List.replicate depth '\x7d')
        read (· = '+') (closed ++ "\x7d") = .ok ⟨closed.length, tokens⟩ ∧
          read (· = '+') closed = .ok ⟨closed.length, tokens⟩ := by
  have toEnd : ∃ tokens, read (· = '+') "\x7b1\x7d\x7b+\x7b[\x7d" =
      .ok ⟨"\x7b1\x7d\x7b+\x7b[\x7d".length, tokens⟩ := ⟨_, rfl⟩
  obtain ⟨tokens, toEnd⟩ := toEnd
  exact ⟨tokens, toEnd, read_closed_at_end toEnd⟩

end Cairn
