import Cairn.Proofs.Numerals
import Cairn.Proofs.Pushdown
import Mathlib

set_option autoImplicit false

/-!
# Closed prefixes

A text is closed when a closing brace after it closes no block of it and is hidden in no token. What
a closed text reads as does not depend on the text after it, as long as no numeral runs over the
seam, and the text after it reads as it does alone, at offsets that are further on.
-/

namespace Cairn

namespace Reading

variable {isOperator : Char → Bool} {pos : Nat} {c : Char} {cs rest : List Char}

/-! Offsets are relative to where a text starts. -/

def Stretch.shift (k : Nat) (s : Stretch) : Stretch := { s with cursor := k + s.cursor }

def shiftError (k : Nat) (error : ReadError) : ReadError :=
  { error with offset := k + error.offset }

def shiftResult (k : Nat) : Except ReadError Stretch → Except ReadError Stretch
  | .ok s => .ok (s.shift k)
  | .error error => .error (shiftError k error)

def Meaning.shift (k : Nat) : Meaning → Meaning
  | .illFormed error => .illFormed (shiftError k error)
  | meaning => meaning

def Lexeme.shift (k : Nat) : Lexeme → Lexeme
  | .token value next rest => .token value (k + next) rest
  | .blank next rest => .blank (k + next) rest
  | .invalid error => .invalid (shiftError k error)
  | lexeme => lexeme

theorem ofNumber_shift (k offset : Nat) (text : List Char) :
    Meaning.ofNumber (number text (k + offset)) =
      (Meaning.ofNumber (number text offset)).shift k := by
  unfold number
  cases Number.numeralOfChars? text <;> rfl

theorem meaning_shift (k pos : Nat) (piece : Piece) :
    piece.meaning isOperator (k + pos) = (piece.meaning isOperator pos).shift k := by
  cases piece with
  | run text => rw [Piece.meaning, Piece.meaning, Nat.add_assoc, ofNumber_shift]
  | enclosed opener inside closer =>
    rw [Piece.meaning, Piece.meaning]
    split_ifs
    · simp only [Nat.add_assoc, ofNumber_shift]
    all_goals rfl
  | single c =>
    rw [Piece.meaning, Piece.meaning]
    split_ifs <;> rfl

theorem lexeme_shift (isOperator : Char → Bool) (k pos : Nat) (c : Char) (cs : List Char) :
    lexeme isOperator (k + pos) c cs = (lexeme isOperator pos c cs).shift k := by
  rw [lexeme_eq_cut, lexeme_eq_cut, meaning_shift, Nat.add_assoc]
  cases (cut c cs).1.meaning isOperator pos <;> rfl

theorem shiftResult_prepend (k : Nat) (value : Value) (result : Except ReadError Stretch) :
    shiftResult k (result.map (Stretch.prepend value)) =
      (shiftResult k result).map (Stretch.prepend value) := by
  cases result <;> rfl

theorem Stretch.shift_after (k : Nat) (s : Stretch) : (s.shift k).after = k + s.after := by
  obtain ⟨tokens, cursor, rest⟩ := s
  cases rest <;> rfl

theorem Reads.shift {result : Except ReadError Stretch} (reads : Reads isOperator pos cs result)
    (k : Nat) : Reads isOperator (k + pos) cs (shiftResult k result) := by
  induction reads with
  | finish => exact .finish
  | token isToken _ inductionHypothesis =>
    rw [shiftResult_prepend]
    refine .token ?_ inductionHypothesis
    rw [lexeme_shift, isToken]
    rfl
  | blank isBlank _ inductionHypothesis =>
    refine .blank ?_ inductionHypothesis
    rw [lexeme_shift, isBlank]
    rfl
  | @block _ _ _ inner _ isOpening _ _ innerHypothesis laterHypothesis =>
    rw [shiftResult_prepend]
    rw [← Stretch.shift_after] at laterHypothesis
    refine @Reads.block _ _ _ _ (inner.shift k) _ ?_ innerHypothesis laterHypothesis
    rw [lexeme_shift, isOpening]
    rfl
  | badBlock isOpening _ inductionHypothesis =>
    refine .badBlock ?_ inductionHypothesis
    rw [lexeme_shift, isOpening]
    rfl
  | closing isClosing =>
    refine .closing ?_
    rw [lexeme_shift, isClosing]
    rfl
  | invalid isInvalid =>
    refine .invalid ?_
    rw [lexeme_shift, isInvalid]
    rfl

/-! What a piece is depends on the text up to where it is complete. -/

/-- No numeral runs from one text into the next. -/
def Seam (front back : List Char) : Prop :=
  ∀ c ∈ front.getLast?, ∀ d ∈ back.head?, isNumeric c = true → isNumeric d = false

theorem Seam.of_append {front middle back : List Char} (seam : Seam (front ++ middle) back) :
    Seam middle back := by
  intro c last
  apply seam c
  cases middle with
  | nil => cases last
  | cons d middle => simpa [List.getLast?_append] using last

/-- A piece with text after it is complete: it is the first piece whatever comes after it, unless it
is a run and goes on. -/
theorem cut_stable (more : (cut c cs).2 ≠ []) {rest' : List Char}
    (stops : isNumeric c = true → ∀ d ∈ rest'.head?, isNumeric d = false) :
    ∃ tail, (cut c cs).1.text = c :: tail ∧ cut c (tail ++ rest') = ((cut c cs).1, rest') := by
  by_cases numeric : isNumeric c = true
  · have inside : ∀ d ∈ cs.takeWhile isNumeric, isNumeric d = true := fun d member =>
      List.mem_takeWhile_imp member
    refine ⟨cs.takeWhile isNumeric, by rw [cut, if_pos numeric]; rfl, ?_⟩
    rw [cut, cut, if_pos numeric, if_pos numeric, takeWhile_of_stop inside (stops numeric),
      dropWhile_of_stop inside (stops numeric)]
  by_cases opens : closers c = []
  · refine ⟨[], by rw [cut, if_neg numeric, if_pos opens]; rfl, ?_⟩
    rw [cut, cut, if_neg numeric, if_neg numeric, if_pos opens, if_pos opens]
    rfl
  rw [cut, if_neg numeric, if_neg opens] at more ⊢
  dsimp only at more ⊢
  cases shape : cs.dropWhile (!closes c ·) with
  | nil => exact absurd (by rw [shape]; rfl) more
  | cons closer later =>
    have inside : ∀ d ∈ cs.takeWhile (!closes c ·), (!closes c d) = true := by
      intro d member
      exact List.mem_takeWhile_imp (p := (!closes c ·)) member
    have stops' : ∀ d ∈ (closer :: rest').head?, (!closes c d) = false := by
      rintro d ⟨⟩
      have head := List.head?_dropWhile_not (!closes c ·) cs
      rwa [shape] at head
    refine ⟨cs.takeWhile (!closes c ·) ++ [closer], rfl, ?_⟩
    rw [List.append_assoc, List.singleton_append, cut, if_neg numeric, if_neg opens,
      takeWhile_of_stop inside stops', dropWhile_of_stop inside stops']
    rfl

theorem cut_run (numeric : isNumeric c = true) (cs : List Char) :
    (∀ d ∈ (cut c cs).1.text, isNumeric d = true) ∧
      ∀ d ∈ (cut c cs).2.head?, isNumeric d = false := by
  rw [cut, if_pos numeric]
  constructor
  · intro d member
    rcases List.mem_cons.mp member with rfl | inside
    · exact numeric
    · exact List.mem_takeWhile_imp inside
  · intro d first
    have head := List.head?_dropWhile_not isNumeric cs
    rw [Option.mem_def.mp first] at head
    exact head

/-- The same tokens in front of a stretch. -/
def Stretch.prependAll (tokens : List Value) (s : Stretch) : Stretch :=
  { s with tokens := tokens ++ s.tokens }

theorem map_prependAll_prepend (value : Value) (tokens : List Value)
    (result : Except ReadError Stretch) :
    result.map (Stretch.prependAll (value :: tokens)) =
      (result.map (Stretch.prependAll tokens)).map (Stretch.prepend value) := by
  cases result <;> rfl

/-- The first lexeme of a text that a stretch leaves more of, with another text behind it. -/
theorem lexeme_append (isOperator : Char → Bool) (pos : Nat) {front tail back : List Char}
    (text : c :: cs = front ++ tail) (after : tail <:+ (cut c cs).2) (more : tail ≠ [])
    (seam : Seam front back) :
    ∃ first middle, front = c :: first ++ middle ∧ (cut c cs).2 = middle ++ tail ∧
      (c :: first).length = (cut c cs).1.text.length ∧
      lexeme isOperator pos c (first ++ (middle ++ back)) =
        ((cut c cs).1.meaning isOperator pos).lexeme (pos + (cut c cs).1.text.length)
          (middle ++ back) := by
  obtain ⟨middle, rest⟩ := after
  have notEmpty : (cut c cs).2 ≠ [] := by
    rw [← rest]
    simp [more]
  have parts : front = (cut c cs).1.text ++ middle := by
    apply (List.append_left_inj tail).mp
    rw [List.append_assoc, rest, cut_text, text]
  -- A run ends where it did before, in `front`, or else at the seam.
  have stops : isNumeric c = true → ∀ d ∈ (middle ++ back).head?, isNumeric d = false := by
    intro numeric d first
    obtain ⟨run, ended⟩ := cut_run numeric cs
    cases middle with
    | nil =>
      rw [List.append_nil] at parts
      subst parts
      exact seam _ (List.getLast?_eq_some_getLast (cut_text_ne_nil c cs)) d first
        (run _ (List.getLast_mem _))
    | cons e middle =>
      apply ended d
      rw [← rest]
      simpa using first
  obtain ⟨first, pieceText, taken⟩ := cut_stable notEmpty stops
  refine ⟨first, middle, by rw [parts, pieceText], rest.symm, by rw [pieceText], ?_⟩
  rw [lexeme_eq_cut, taken]

/-- A block with more text behind it ends in its brace. -/
theorem Reads.block_parts {inner others : Stretch} (inside : Reads isOperator pos cs (.ok inner))
    (reads : Reads isOperator inner.after inner.rest.tail (.ok others)) (more : others.rest ≠ []) :
    ∃ before middle, cs = before ++ inner.rest ∧
      inner.rest = '\x7d' :: (middle ++ others.rest) ∧ inner.after = pos + before.length + 1 := by
  obtain ⟨before, text⟩ := inside.rest_suffix
  obtain ⟨middle, rest⟩ := reads.rest_suffix
  have spans := inside.spans.2
  rw [← text, List.length_append] at spans
  cases shape : inner.rest with
  | nil =>
    rw [shape] at rest
    exact absurd (List.append_eq_nil_iff.mp rest).2 more
  | cons brace tail =>
    obtain rfl := inside.rest_closes brace (by rw [shape]; rfl)
    rw [shape] at text rest
    refine ⟨before, middle, text.symm, by rw [rest]; rfl, ?_⟩
    simp only [Stretch.after, shape, List.isEmpty_cons, Bool.false_eq_true, if_false]
    omega

/-- A stretch that stops before a closing brace reads the same before any other text, and the other
text is read after it. -/
theorem Reads.append {s : Stretch} (reads : Reads isOperator pos cs (.ok s)) (more : s.rest ≠ [])
    {front back : List Char} (text : cs = front ++ s.rest) (seam : Seam front back)
    {result : Except ReadError Stretch}
    (later : Reads isOperator (pos + front.length) back result) :
    Reads isOperator pos (front ++ back) (result.map (Stretch.prependAll s.tokens)) := by
  generalize outcome : Except.ok s = whole at reads
  induction reads generalizing s front back result with
  | finish =>
    cases outcome
    exact absurd rfl more
  | @token pos c cs value _ _ inner isToken reads inductionHypothesis =>
    cases inner with
    | error => cases outcome
    | ok others =>
      cases outcome
      obtain ⟨meaning, rfl, rfl⟩ := lexeme_token_cut isToken
      obtain ⟨first, middle, rfl, rest, length, found⟩ :=
        lexeme_append isOperator pos text reads.rest_suffix more seam
      rw [meaning] at found
      rw [List.length_append, ← Nat.add_assoc, length] at later
      rw [List.append_assoc, Stretch.prepend, map_prependAll_prepend]
      exact .token found (inductionHypothesis (s := others) more rest seam.of_append later rfl)
  | @blank pos c cs _ _ _ isBlank reads inductionHypothesis =>
    cases outcome
    obtain ⟨meaning, rfl, rfl⟩ := lexeme_blank_cut isBlank
    obtain ⟨first, middle, rfl, rest, length, found⟩ :=
      lexeme_append isOperator pos text reads.rest_suffix more seam
    rw [meaning] at found
    rw [List.length_append, ← Nat.add_assoc, length] at later
    rw [List.append_assoc]
    exact .blank found (inductionHypothesis more rest seam.of_append later rfl)
  | @block pos c cs inner outer isOpening inside reads innerHypothesis laterHypothesis =>
    cases outer with
    | error => cases outcome
    | ok others =>
      cases outcome
      obtain rfl := eq_brace (congrArg Lexeme.brace? isOpening)
      obtain ⟨before, middle, insideText, shape, after⟩ := inside.block_parts reads more
      have parts : front = '\x7b' :: (before ++ '\x7d' :: middle) := by
        apply (List.append_left_inj others.rest).mp
        rw [insideText, shape] at text
        simpa [Stretch.prepend] using text.symm
      subst parts
      have closing : Reads isOperator (pos + 1 + before.length) ('\x7d' :: (middle ++ back))
          (.ok ⟨[], pos + 1 + before.length, '\x7d' :: (middle ++ back)⟩) := .closing rfl
      have braceSeam : Seam before ('\x7d' :: (middle ++ back)) := by
        rintro _ _ d ⟨⟩ _
        rfl
      have laterSeam : Seam middle back := by
        have whole : Seam (('\x7b' :: (before ++ ['\x7d'])) ++ middle) back := by simpa using seam
        exact whole.of_append
      have offset : pos + ('\x7b' :: (before ++ '\x7d' :: middle)).length =
          inner.after + middle.length := by
        rw [after, List.length_cons, List.length_append, List.length_cons]
        omega
      rw [offset] at later
      have insideAgain :=
        innerHypothesis (s := inner) (by simp [shape]) insideText braceSeam closing rfl
      have laterAgain :=
        laterHypothesis (s := others) more (by rw [shape]; rfl) laterSeam later rfl
      rw [after] at laterAgain
      have again := Reads.block (c := '\x7b') rfl insideAgain laterAgain
      rw [Stretch.prepend, map_prependAll_prepend, List.cons_append, List.append_assoc]
      simpa [Stretch.prependAll] using again
  | badBlock => cases outcome
  | closing =>
    cases outcome
    have empty : front = [] := by simpa using text
    subst empty
    cases result <;> exact later
  | invalid => cases outcome

theorem Reads.read_eq {source : String} {result : Except ReadError Stretch}
    (reads : Reads isOperator 0 source.toList result) :
    read isOperator source = result.map fun s => ⟨s.cursor, s.tokens⟩ := by
  unfold read ofChars
  rw [reads.stretch_eq (Nat.lt_succ_self _)]
  cases result <;> rfl

/-- A closed text is read up to the brace after it. -/
theorem reads_of_closed {a : String} {tokens : List Value}
    (closed : read isOperator (a ++ "\x7d") = .ok ⟨a.length, tokens⟩) :
    Reads isOperator 0 (a.toList ++ ['\x7d']) (.ok ⟨tokens, a.length, ['\x7d']⟩) := by
  obtain ⟨⟨found, cursor, rest⟩, reads, same⟩ := (read_eq_ok_iff _ _ _).mp closed
  cases same
  have text : (a ++ "\x7d").toList = a.toList ++ ['\x7d'] := by simp
  rw [text] at reads
  have spans := reads.spans.2
  have single : rest.length = 1 := by
    simp only [List.length_append, String.length_toList, List.length_singleton] at spans
    omega
  obtain ⟨front, parts⟩ := reads.rest_suffix
  have last : rest = ['\x7d'] := List.append_inj_right' parts single
  rw [last] at reads
  exact reads

end Reading

open Reading

/-- Reading goes on after a closed text as it starts at the beginning of a text, at offsets that are
further on by the length of the closed text. -/
theorem read_append_of_closed {isOperator : Char → Bool} {a : String} {tokens : List Value}
    (closed : read isOperator (a ++ "\x7d") = .ok ⟨a.length, tokens⟩) {b : String}
    (seam : Seam a.toList b.toList) :
    read isOperator (a ++ b) =
      match read isOperator b with
      | .ok reading => .ok ⟨a.length + reading.cursor, tokens ++ reading.tokens⟩
      | .error error => .error ⟨error.cause, a.length + error.offset⟩ := by
  have alone := reads_stretch isOperator 0 (Nat.lt_succ_self b.toList.length)
  have shifted := alone.shift a.toList.length
  rw [Nat.add_comm] at shifted
  have both := (reads_of_closed closed).append (by simp) rfl seam shifted
  rw [← String.toList_append] at both
  rw [both.read_eq, alone.read_eq]
  cases stretch isOperator b.toList.length.succ 0 b.toList <;>
    simp [shiftResult, shiftError, Stretch.shift, Stretch.prependAll, Except.map,
      String.length_toList]

end Cairn
