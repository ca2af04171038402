import Cairn.Proofs.Lexemes
import Mathlib

set_option autoImplicit false

/-!
# Pieces and open blocks

The reader in two passes. The first cuts a text into pieces without looking at braces or operators:
runs of numeric characters, texts up to their closing character, and single characters. The second
takes the pieces in turn and keeps the open blocks on a stack. Between two pieces the recursive
reader stands where the second pass stands, with the tokens of its callers on that stack.
-/

namespace Cairn

namespace Reading

inductive Piece where
  /-- A longest run of the characters of bare numerals. -/
  | run (text : List Char)
  /-- An opening character, the text up to the next character that closes it, and that character
  unless the text ends before. -/
  | enclosed (opener : Char) (inside : List Char) (closer : Option Char)
  | single (c : Char)

def Piece.text : Piece → List Char
  | .run text => text
  | .enclosed opener inside closer => opener :: (inside ++ closer.toList)
  | .single c => [c]

/-- The characters that close what a character opens; most open nothing. -/
def closers (opener : Char) : List Char :=
  if opener = '(' then [')']
  else if opener = '"' then ['"']
  else if opener = '[' then [']']
  else if opener = '\\' then ['\n', '\\']
  else []

def closes (opener c : Char) : Bool := c ∈ closers opener

/-- The first piece of a text that starts with `c`, and the text after it. -/
def cut (c : Char) (cs : List Char) : Piece × List Char :=
  if isNumeric c then (.run (c :: cs.takeWhile isNumeric), cs.dropWhile isNumeric)
  else if closers c = [] then (.single c, cs)
  else
    let rest := cs.dropWhile (!closes c ·)
    (.enclosed c (cs.takeWhile (!closes c ·)) rest.head?, rest.tail)

theorem cut_text (c : Char) (cs : List Char) : (cut c cs).1.text ++ (cut c cs).2 = c :: cs := by
  unfold cut
  split
  · simp [Piece.text]
  split
  · rfl
  · have closed : ∀ rest : List Char, rest.head?.toList ++ rest.tail = rest := by
      intro rest
      cases rest <;> rfl
    simp [Piece.text, closed]

theorem cut_text_ne_nil (c : Char) (cs : List Char) : (cut c cs).1.text ≠ [] := by
  unfold cut
  split
  · simp [Piece.text]
  split <;> simp [Piece.text]

theorem cut_shorter (c : Char) (cs : List Char) : (cut c cs).2.length < (c :: cs).length := by
  have whole := congrArg List.length (cut_text c cs)
  have nonempty := List.length_pos_of_ne_nil (cut_text_ne_nil c cs)
  rw [List.length_append] at whole
  omega

def pieces : List Char → List Piece
  | [] => []
  | c :: cs => (cut c cs).1 :: pieces (cut c cs).2
termination_by cs => cs.length
decreasing_by exact cut_shorter c cs

/-- No character is lost between the pieces of a text. -/
theorem pieces_text (cs : List Char) : (pieces cs).flatMap Piece.text = cs := by
  fun_induction pieces cs with
  | case1 => rfl
  | case2 c cs inductionHypothesis => rw [List.flatMap_cons, inductionHypothesis, cut_text]

/-- What a piece is to the block it stands in. -/
inductive Meaning where
  | token (value : Value)
  | nothing
  | opening
  | closing
  | illFormed (error : ReadError)

def Meaning.ofNumber : Except ReadError Value → Meaning
  | .ok value => .token value
  | .error error => .illFormed error

/-- The meaning of a piece at offset `pos`. A numeral that is none is reported at the offset after
it, where a parenthesis counts as closed. -/
def Piece.meaning (isOperator : Char → Bool) (pos : Nat) : Piece → Meaning
  | .run text => .ofNumber (number text (pos + text.length))
  | .enclosed opener inside _ =>
    if opener = '(' then .ofNumber (number inside (pos + 1 + inside.length + 1))
    else if opener = '"' then .token (.string (String.ofList inside))
    else if opener = '[' then .token (.function (String.ofList inside))
    else .nothing
  | .single c =>
    if c = '\x7b' then .opening
    else if c = '\x7d' then .closing
    else if c = ' ' ∨ c = '\t' ∨ c = '\n' then .nothing
    else if c = 'T' then .token (.boolean true)
    else if c = 'F' then .token (.boolean false)
    else if isOperator c then .token (.operator (String.singleton c))
    else .illFormed ⟨.unknownSymbol (String.singleton c), pos⟩

/-- The tokens of the outermost list once every open block is closed. Lists of tokens that may still
grow have their latest token first, and the blocks around the current one are innermost first. -/
def closeAll (current : List Value) : List (List Value) → List Value
  | [] => current.reverse
  | outer :: blocks => closeAll (.block current.reverse :: outer) blocks

/-- Takes pieces in turn, from offset `pos` on. A closing brace with no block open ends the text
there, and the end of the text closes all open blocks. -/
def assemble (isOperator : Char → Bool) (pos : Nat) (current : List Value)
    (blocks : List (List Value)) : List Piece → Except ReadError Reading
  | [] => .ok ⟨pos, closeAll current blocks⟩
  | piece :: rest =>
    let next := pos + piece.text.length
    match piece.meaning isOperator pos with
    | .token value => assemble isOperator next (value :: current) blocks rest
    | .nothing => assemble isOperator next current blocks rest
    | .opening => assemble isOperator next [] (current :: blocks) rest
    | .closing =>
      match blocks with
      | [] => .ok ⟨pos, current.reverse⟩
      | outer :: blocks => assemble isOperator next (.block current.reverse :: outer) blocks rest
    | .illFormed error => .error error

variable {isOperator : Char → Bool}

/-- The lexeme of a meaning, before the rest of the text. -/
def Meaning.lexeme (next : Nat) (rest : List Char) : Meaning → Lexeme
  | .token value => .token value next rest
  | .nothing => .blank next rest
  | .opening => .opening
  | .closing => .closing
  | .illFormed error => .invalid error

theorem delimited_eq (isCloser : Char → Bool) (start : Nat) (cs : List Char) :
    delimited isCloser start cs =
      ⟨cs.takeWhile (!isCloser ·), start + (cs.takeWhile (!isCloser ·)).length,
        start + (cs.takeWhile (!isCloser ·)).length +
          (cs.dropWhile (!isCloser ·)).head?.toList.length,
        (cs.dropWhile (!isCloser ·)).tail⟩ := by
  unfold delimited
  cases cs.dropWhile (!isCloser ·) <;> rfl

theorem lexeme_ofNumber (text : List Char) (offset next : Nat) (rest : List Char) :
    (Meaning.ofNumber (number text offset)).lexeme next rest =
      .ofNumeral text offset next rest := by
  unfold number Lexeme.ofNumeral
  cases Number.numeralOfChars? text <;> rfl

/-- The piece that an opening character starts, as the reader delimits it. -/
theorem cut_opener (isCloser : Char → Bool) {opener : Char} (opens : closers opener ≠ [])
    (bare : isNumeric opener = false) (same : ∀ c, isCloser c = closes opener c) (pos : Nat)
    (cs : List Char) :
    ∃ closer, cut opener cs =
        (.enclosed opener (delimited isCloser (pos + 1) cs).inside closer,
          (delimited isCloser (pos + 1) cs).rest) ∧
      pos + (cut opener cs).1.text.length = (delimited isCloser (pos + 1) cs).next ∧
      (delimited isCloser (pos + 1) cs).stop =
        pos + 1 + (delimited isCloser (pos + 1) cs).inside.length := by
  have taken : cut opener cs = (.enclosed opener (cs.takeWhile (!isCloser ·))
      (cs.dropWhile (!isCloser ·)).head?, (cs.dropWhile (!isCloser ·)).tail) := by
    simp only [cut, bare, opens, same, Bool.false_eq_true, if_false]
  rw [delimited_eq, taken]
  refine ⟨_, rfl, ?_, rfl⟩
  simp only [Piece.text, List.length_cons, List.length_append]
  omega

/-- The lexeme at the front of a text is what its first piece means. -/
theorem lexeme_eq_cut (isOperator : Char → Bool) (pos : Nat) (c : Char) (cs : List Char) :
    lexeme isOperator pos c cs =
      ((cut c cs).1.meaning isOperator pos).lexeme (pos + (cut c cs).1.text.length)
        (cut c cs).2 := by
  by_cases numeric : isNumeric c = true
  · have stop : pos + (c :: cs.takeWhile isNumeric).length =
        pos + 1 + (cs.takeWhile isNumeric).length := by
      rw [List.length_cons]
      omega
    rw [lexeme, if_pos numeric, cut, if_pos numeric]
    simp only [Piece.meaning, Piece.text, lexeme_ofNumber, stop]
  have bare : isNumeric c = false := by simpa using numeric
  by_cases opens : closers c = []
  · have notOpener : c ≠ '(' ∧ c ≠ '"' ∧ c ≠ '[' ∧ c ≠ '\\' := by
      refine ⟨?_, ?_, ?_, ?_⟩ <;> rintro rfl <;> cases opens
    obtain ⟨parenthesis, quote, bracket, comment⟩ := notOpener
    rw [lexeme, if_neg numeric, if_neg parenthesis, if_neg quote, if_neg bracket, cut,
      if_neg numeric, if_pos opens]
    simp only [Piece.meaning, Piece.text, comment, if_false, List.length_singleton]
    split_ifs <;> rfl
  have isOpener : c = '(' ∨ c = '"' ∨ c = '[' ∨ c = '\\' := by
    by_contra other
    simp only [not_or] at other
    exact opens (by simp [closers, other])
  rcases isOpener with rfl | rfl | rfl | rfl
  · obtain ⟨closer, taken, next, stop⟩ :=
      cut_opener (· = ')') opens bare (by simp [closes, closers]) pos cs
    rw [next, taken, lexeme, if_neg numeric, if_pos rfl]
    simp only [Piece.meaning, if_true, lexeme_ofNumber, stop]
  · obtain ⟨closer, taken, next, _⟩ :=
      cut_opener (· = '"') opens bare (by simp [closes, closers]) pos cs
    rw [next, taken]
    rfl
  · obtain ⟨closer, taken, next, _⟩ :=
      cut_opener (· = ']') opens bare (by simp [closes, closers]) pos cs
    rw [next, taken]
    rfl
  · obtain ⟨closer, taken, next, _⟩ :=
      cut_opener (fun x => x = '\n' ∨ x = '\\') opens bare
        (by simp [closes, closers]) pos cs
    rw [next, taken]
    rfl

def Meaning.brace? : Meaning → Option Char
  | .opening => some '\x7b'
  | .closing => some '\x7d'
  | .token _ | .nothing | .illFormed _ => none

theorem brace?_ofNumber (read : Except ReadError Value) :
    (Meaning.ofNumber read).brace? = none := by
  cases read <;> rfl

theorem Piece.text_of_brace {pos : Nat} {piece : Piece} {brace : Char}
    (isBrace : (piece.meaning isOperator pos).brace? = some brace) : piece.text = [brace] := by
  cases piece with
  | run text => simp [Piece.meaning, brace?_ofNumber] at isBrace
  | enclosed opener inside closer =>
    rw [Piece.meaning] at isBrace
    split_ifs at isBrace
    · simp [brace?_ofNumber] at isBrace
    all_goals cases isBrace
  | single c =>
    rw [Piece.meaning] at isBrace
    split_ifs at isBrace <;> cases isBrace <;> simp_all [Piece.text]

def Lexeme.brace? : Lexeme → Option Char
  | .opening => some '\x7b'
  | .closing => some '\x7d'
  | .token .. | .blank .. | .invalid _ => none

/-- A lexeme that opens or closes a block is its brace. -/
theorem eq_brace {pos : Nat} {c brace : Char} {cs : List Char}
    (isBrace : (lexeme isOperator pos c cs).brace? = some brace) : c = brace := by
  have same : ((cut c cs).1.meaning isOperator pos).brace? = some brace := by
    rw [lexeme_eq_cut] at isBrace
    cases meaning : (cut c cs).1.meaning isOperator pos <;> rwa [meaning] at isBrace
  have whole := cut_text c cs
  rw [Piece.text_of_brace same] at whole
  exact (List.cons.inj whole).1.symm

/-- What the reader leaves is empty or starts with a closing brace. -/
theorem Reads.rest_closes {pos : Nat} {cs : List Char} {s : Stretch}
    (reads : Reads isOperator pos cs (.ok s)) : ∀ c ∈ s.rest.head?, c = '\x7d' := by
  generalize outcome : Except.ok s = result at reads
  induction reads generalizing s with
  | finish =>
    cases outcome
    simp
  | @token _ _ _ _ _ _ result _ _ inductionHypothesis =>
    cases result with
    | error => cases outcome
    | ok later =>
      cases outcome
      exact inductionHypothesis (s := later) rfl
  | blank _ _ inductionHypothesis => exact inductionHypothesis outcome
  | @block _ _ _ _ result _ _ _ _ laterHypothesis =>
    cases result with
    | error => cases outcome
    | ok later =>
      cases outcome
      exact laterHypothesis (s := later) rfl
  | badBlock => cases outcome
  | closing isClosing =>
    cases outcome
    rintro c ⟨⟩
    exact eq_brace (congrArg Lexeme.brace? isClosing)
  | invalid => cases outcome

theorem lexeme_token_cut {pos next : Nat} {c : Char} {cs rest : List Char} {value : Value}
    (isToken : lexeme isOperator pos c cs = .token value next rest) :
    (cut c cs).1.meaning isOperator pos = .token value ∧
      next = pos + (cut c cs).1.text.length ∧ (cut c cs).2 = rest := by
  rw [lexeme_eq_cut] at isToken
  cases meaning : (cut c cs).1.meaning isOperator pos <;> rw [meaning] at isToken <;>
    simp_all [Meaning.lexeme]

theorem lexeme_blank_cut {pos next : Nat} {c : Char} {cs rest : List Char}
    (isBlank : lexeme isOperator pos c cs = .blank next rest) :
    (cut c cs).1.meaning isOperator pos = .nothing ∧
      next = pos + (cut c cs).1.text.length ∧ (cut c cs).2 = rest := by
  rw [lexeme_eq_cut] at isBlank
  cases meaning : (cut c cs).1.meaning isOperator pos <;> rw [meaning] at isBlank <;>
    simp_all [Meaning.lexeme]

theorem Reads.rest_suffix {pos : Nat} {cs : List Char} {s : Stretch}
    (reads : Reads isOperator pos cs (.ok s)) : s.rest <:+ cs := by
  generalize outcome : Except.ok s = result at reads
  induction reads generalizing s with
  | finish =>
    cases outcome
    exact List.suffix_rfl
  | @token _ c cs _ _ _ result isToken _ inductionHypothesis =>
    cases result with
    | error => cases outcome
    | ok later =>
      cases outcome
      obtain ⟨_, _, rfl⟩ := lexeme_token_cut isToken
      exact (inductionHypothesis (s := later) rfl).trans ⟨_, cut_text c cs⟩
  | @blank _ c cs _ _ _ isBlank _ inductionHypothesis =>
    obtain ⟨_, _, rfl⟩ := lexeme_blank_cut isBlank
    exact (inductionHypothesis outcome).trans ⟨_, cut_text c cs⟩
  | @block _ c cs inner result _ _ _ innerHypothesis laterHypothesis =>
    cases result with
    | error => cases outcome
    | ok later =>
      cases outcome
      have inside : inner.rest.tail <:+ cs :=
        (List.tail_suffix inner.rest).trans (innerHypothesis rfl)
      exact ((laterHypothesis (s := later) rfl).trans inside).trans (List.suffix_cons c cs)
  | badBlock => cases outcome
  | closing =>
    cases outcome
    exact List.suffix_rfl
  | invalid => cases outcome

/-- The reader stops at the end of the text or at a closing brace. -/
theorem Reads.cursor_ends {cs : List Char} {s : Stretch} (reads : Reads isOperator 0 cs (.ok s)) :
    s.cursor = cs.length ∨ cs[s.cursor]? = some '\x7d' := by
  obtain ⟨front, rfl⟩ := reads.rest_suffix
  have cursor : s.cursor = front.length := by
    have spans := reads.spans.2
    rw [List.length_append] at spans
    omega
  rw [cursor]
  cases shape : s.rest with
  | nil => simp
  | cons brace rest =>
    obtain rfl := reads.rest_closes brace (by rw [shape]; rfl)
    simp

/-- One round of the second pass, by the lexeme at the front of the text. -/
theorem assemble_cons (isOperator : Char → Bool) (pos : Nat) (current : List Value)
    (blocks : List (List Value)) (c : Char) (cs : List Char) :
    assemble isOperator pos current blocks (pieces (c :: cs)) =
      match lexeme isOperator pos c cs with
      | .token value next rest =>
        assemble isOperator next (value :: current) blocks (pieces rest)
      | .blank next rest => assemble isOperator next current blocks (pieces rest)
      | .opening => assemble isOperator (pos + 1) [] (current :: blocks) (pieces cs)
      | .closing =>
        match blocks with
        | [] => .ok ⟨pos, current.reverse⟩
        | outer :: blocks =>
          assemble isOperator (pos + 1) (.block current.reverse :: outer) blocks (pieces cs)
      | .invalid error => .error error := by
  rw [pieces, assemble.eq_def]
  simp only
  have found := lexeme_eq_cut isOperator pos c cs
  cases meaning : (cut c cs).1.meaning isOperator pos <;> rw [meaning] at found
  case opening =>
    obtain rfl := eq_brace (congrArg Lexeme.brace? found)
    rfl
  case closing =>
    obtain rfl := eq_brace (congrArg Lexeme.brace? found)
    rfl
  all_goals
    rw [found]
    rfl

/-- The second pass comes to where a stretch ends with the tokens of the stretch, and to the error
where there is one. -/
theorem Reads.assemble_eq {pos : Nat} {cs : List Char} {result : Except ReadError Stretch}
    (reads : Reads isOperator pos cs result) (current : List Value) (blocks : List (List Value)) :
    assemble isOperator pos current blocks (pieces cs) =
      result.bind fun s =>
        assemble isOperator s.cursor (s.tokens.reverse ++ current) blocks (pieces s.rest) := by
  induction reads generalizing current blocks with
  | finish => rfl
  | @token _ _ _ value _ _ result isToken _ inductionHypothesis =>
    rw [assemble_cons, isToken]
    simp only
    rw [inductionHypothesis]
    cases result with
    | error error => rfl
    | ok s => simp [Except.map, Except.bind, Stretch.prepend]
  | blank isBlank _ inductionHypothesis =>
    rw [assemble_cons, isBlank]
    exact inductionHypothesis current blocks
  | @block _ _ _ inner result isOpening inside _ innerHypothesis laterHypothesis =>
    have closed : assemble isOperator inner.cursor inner.tokens.reverse (current :: blocks)
          (pieces inner.rest) =
        assemble isOperator inner.after (.block inner.tokens :: current) blocks
          (pieces inner.rest.tail) := by
      cases shape : inner.rest with
      | nil => simp [Stretch.after, shape, pieces, assemble, closeAll]
      | cons brace rest =>
        obtain rfl := inside.rest_closes brace (by rw [shape]; rfl)
        rw [assemble_cons]
        simp [Stretch.after, shape, lexeme, isNumeric]
    rw [assemble_cons, isOpening]
    simp only
    rw [innerHypothesis]
    simp only [Except.bind, List.append_nil]
    rw [closed, laterHypothesis]
    cases result with
    | error error => rfl
    | ok s => simp [Except.map, Except.bind, Stretch.prepend]
  | badBlock isOpening _ inductionHypothesis =>
    rw [assemble_cons, isOpening]
    exact inductionHypothesis [] (current :: blocks)
  | closing => rfl
  | invalid isInvalid =>
    rw [assemble_cons, isInvalid]
    rfl

/-- Where no block is open, a stretch ends the text. -/
theorem Reads.assemble_rest {pos : Nat} {cs : List Char} {s : Stretch}
    (reads : Reads isOperator pos cs (.ok s)) (current : List Value) :
    assemble isOperator s.cursor current [] (pieces s.rest) = .ok ⟨s.cursor, current.reverse⟩ := by
  cases shape : s.rest with
  | nil => rw [pieces, assemble, closeAll]
  | cons brace rest =>
    obtain rfl := reads.rest_closes brace (by rw [shape]; rfl)
    rw [assemble_cons]
    rfl

end Reading

open Reading

/-- Reading a text is cutting it into pieces, without regard to nesting, and assembling these with a
stack of open blocks. -/
theorem read_eq_assemble_pieces (isOperator : Char → Bool) (source : String) :
    read isOperator source = assemble isOperator 0 [] [] (pieces source.toList) ∧
      (pieces source.toList).flatMap Piece.text = source.toList ∧
      ∀ reading, read isOperator source = .ok reading →
        reading.cursor = source.length ∨ source.toList[reading.cursor]? = some '\x7d' := by
  have reads := reads_stretch isOperator 0 (Nat.lt_succ_self source.toList.length)
  unfold read ofChars
  cases result : stretch isOperator (source.toList.length + 1) 0 source.toList with
  | error error =>
    refine ⟨?_, pieces_text source.toList, fun _ failed => by cases failed⟩
    rw [reads.assemble_eq, Nat.succ_eq_add_one, result]
    rfl
  | ok s =>
    rw [Nat.succ_eq_add_one, result] at reads
    refine ⟨?_, pieces_text source.toList, ?_⟩
    · rw [reads.assemble_eq]
      have ends := reads.assemble_rest s.tokens.reverse
      rw [List.reverse_reverse] at ends
      simp only [Except.bind, List.append_nil]
      exact ends.symm
    · rintro reading ⟨⟩
      exact String.length_toList ▸ reads.cursor_ends

end Cairn
