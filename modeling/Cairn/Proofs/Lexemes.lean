import Cairn.Reading
import Mathlib

set_option autoImplicit false

/-!
# Lexemes

The reader seen as a relation. What the first characters of a text are, a token, a blank, a brace
or an error, does not depend on how deep in blocks they stand; `Reads` says how lexemes make up a
stretch of tokens. Both are exactly the reader's own steps, so that its properties follow by
induction on `Reads`, without fuel.
-/

namespace Cairn.Reading

/-- What stands at the front of a text. -/
inductive Lexeme where
  /-- A token, and the offset and the text after it. -/
  | token (value : Value) (next : Nat) (rest : List Char)
  /-- A blank or a comment, and the offset and the text after it. -/
  | blank (next : Nat) (rest : List Char)
  | opening
  | closing
  | invalid (error : ReadError)

/-- The lexeme of a numeral; a text that is none is an error at `offset`. -/
def Lexeme.ofNumeral (text : List Char) (offset next : Nat) (rest : List Char) : Lexeme :=
  match Number.numeralOfChars? text with
  | some x => .token (.number x) next rest
  | none => .invalid ⟨.badNumber (String.ofList text), offset⟩

/-- The lexeme at offset `pos` of a text that starts with `c`. -/
def lexeme (isOperator : Char → Bool) (pos : Nat) (c : Char) (cs : List Char) : Lexeme :=
  if isNumeric c then
    let stop := pos + 1 + (cs.takeWhile isNumeric).length
    .ofNumeral (c :: cs.takeWhile isNumeric) stop stop (cs.dropWhile isNumeric)
  else if c = '(' then
    let d := delimited (· = ')') (pos + 1) cs
    .ofNumeral d.inside (d.stop + 1) d.next d.rest
  else if c = '"' then
    let d := delimited (· = '"') (pos + 1) cs
    .token (.string (String.ofList d.inside)) d.next d.rest
  else if c = '[' then
    let d := delimited (· = ']') (pos + 1) cs
    .token (.function (String.ofList d.inside)) d.next d.rest
  else if c = '\x7b' then .opening
  else if c = '\x7d' then .closing
  else if c = ' ' ∨ c = '\t' ∨ c = '\n' then .blank (pos + 1) cs
  else if c = '\\' then
    let d := delimited (fun x => x = '\n' ∨ x = '\\') (pos + 1) cs
    .blank d.next d.rest
  else if c = 'T' then .token (.boolean true) (pos + 1) cs
  else if c = 'F' then .token (.boolean false) (pos + 1) cs
  else if isOperator c then .token (.operator (String.singleton c)) (pos + 1) cs
  else .invalid ⟨.unknownSymbol (String.singleton c), pos⟩

/-- The characters that are never operators, whatever the table: those of numerals, those that
start a delimited token or a comment, braces, blanks and the two truth values. -/
def isReserved (c : Char) : Bool :=
  isNumeric c ||
    c ∈ ['(', '"', '[', '\x7b', '\x7d', ' ', '\t', '\n', '\\', 'T', 'F']

/-- The offset after a stretch and the brace that ends it, if one does. -/
def Stretch.after (s : Stretch) : Nat := if s.rest.isEmpty then s.cursor else s.cursor + 1

/-- A step of the reader takes one lexeme. -/
theorem stretch_cons (isOperator : Char → Bool) (fuel pos : Nat) (c : Char) (cs : List Char) :
    stretch isOperator (fuel + 1) pos (c :: cs) =
      match lexeme isOperator pos c cs with
      | .token value next rest =>
        (stretch isOperator fuel next rest).map (Stretch.prepend value)
      | .blank next rest => stretch isOperator fuel next rest
      | .opening =>
        (stretch isOperator fuel (pos + 1) cs).bind fun inner =>
          (stretch isOperator fuel inner.after inner.rest.tail).map
            (Stretch.prepend (.block inner.tokens))
      | .closing => .ok ⟨[], pos, c :: cs⟩
      | .invalid error => .error error := by
  rw [stretch, lexeme]
  by_cases numeric : isNumeric c = true
  · rw [if_pos numeric, if_pos numeric]
    simp only [number, Lexeme.ofNumeral]
    cases Number.numeralOfChars? (c :: cs.takeWhile isNumeric) <;> rfl
  rw [if_neg numeric, if_neg numeric]
  by_cases parenthesis : c = '('
  · rw [if_pos parenthesis, if_pos parenthesis]
    simp only [number, Lexeme.ofNumeral]
    cases Number.numeralOfChars? (delimited (· = ')') (pos + 1) cs).inside <;> rfl
  rw [if_neg parenthesis, if_neg parenthesis]
  by_cases quote : c = '"'
  · rw [if_pos quote, if_pos quote]
    rfl
  rw [if_neg quote, if_neg quote]
  by_cases bracket : c = '['
  · rw [if_pos bracket, if_pos bracket]
    rfl
  rw [if_neg bracket, if_neg bracket]
  by_cases brace : c = '\x7b'
  · rw [if_pos brace, if_pos brace]
    rfl
  rw [if_neg brace, if_neg brace]
  by_cases closer : c = '\x7d'
  · rw [if_pos closer, if_pos closer]
  rw [if_neg closer, if_neg closer]
  by_cases blank : c = ' ' ∨ c = '\t' ∨ c = '\n'
  · rw [if_pos blank, if_pos blank]
  rw [if_neg blank, if_neg blank]
  by_cases comment : c = '\\'
  · rw [if_pos comment, if_pos comment]
  rw [if_neg comment, if_neg comment]
  by_cases isTrue : c = 'T'
  · rw [if_pos isTrue, if_pos isTrue]
    rfl
  rw [if_neg isTrue, if_neg isTrue]
  by_cases isFalse : c = 'F'
  · rw [if_pos isFalse, if_pos isFalse]
    rfl
  rw [if_neg isFalse, if_neg isFalse]
  by_cases operator : isOperator c = true
  · rw [if_pos operator, if_pos operator]
    rfl
  · rw [if_neg operator, if_neg operator]

/-- A text and what it reads as from offset `pos` on, up to a closing brace that closes no block
of it or to its end. -/
inductive Reads (isOperator : Char → Bool) : Nat → List Char → Except ReadError Stretch → Prop
  | finish {pos : Nat} : Reads isOperator pos [] (.ok ⟨[], pos, []⟩)
  | token {pos : Nat} {c : Char} {cs : List Char} {value : Value} {next : Nat}
      {rest : List Char} {result : Except ReadError Stretch} :
      lexeme isOperator pos c cs = .token value next rest →
      Reads isOperator next rest result →
      Reads isOperator pos (c :: cs) (result.map (Stretch.prepend value))
  | blank {pos : Nat} {c : Char} {cs : List Char} {next : Nat} {rest : List Char}
      {result : Except ReadError Stretch} :
      lexeme isOperator pos c cs = .blank next rest →
      Reads isOperator next rest result →
      Reads isOperator pos (c :: cs) result
  | block {pos : Nat} {c : Char} {cs : List Char} {inner : Stretch}
      {result : Except ReadError Stretch} :
      lexeme isOperator pos c cs = .opening →
      Reads isOperator (pos + 1) cs (.ok inner) →
      Reads isOperator inner.after inner.rest.tail result →
      Reads isOperator pos (c :: cs) (result.map (Stretch.prepend (.block inner.tokens)))
  | badBlock {pos : Nat} {c : Char} {cs : List Char} {error : ReadError} :
      lexeme isOperator pos c cs = .opening →
      Reads isOperator (pos + 1) cs (.error error) →
      Reads isOperator pos (c :: cs) (.error error)
  | closing {pos : Nat} {c : Char} {cs : List Char} :
      lexeme isOperator pos c cs = .closing →
      Reads isOperator pos (c :: cs) (.ok ⟨[], pos, c :: cs⟩)
  | invalid {pos : Nat} {c : Char} {cs : List Char} {error : ReadError} :
      lexeme isOperator pos c cs = .invalid error →
      Reads isOperator pos (c :: cs) (.error error)

variable {isOperator : Char → Bool}

theorem delimited_spans (isCloser : Char → Bool) (start : Nat) (cs : List Char) :
    start ≤ (delimited isCloser start cs).next ∧
    (delimited isCloser start cs).next + (delimited isCloser start cs).rest.length =
      start + cs.length := by
  have whole := congrArg List.length
    (List.takeWhile_append_dropWhile (p := (!isCloser ·)) (l := cs))
  rw [List.length_append] at whole
  unfold delimited
  dsimp only
  split
  next ended =>
    rw [ended, List.length_nil] at whole
    simp only [List.length_nil]
    omega
  next closed =>
    rw [closed, List.length_cons] at whole
    simp only
    omega

/-- The lexemes by their first character. -/
theorem lexeme_cases {motive : Lexeme → Prop} {pos : Nat} {c : Char} {cs : List Char}
    (numeric : isNumeric c = true → motive
      (.ofNumeral (c :: cs.takeWhile isNumeric) (pos + 1 + (cs.takeWhile isNumeric).length)
        (pos + 1 + (cs.takeWhile isNumeric).length) (cs.dropWhile isNumeric)))
    (parenthesis : motive
      (.ofNumeral (delimited (· = ')') (pos + 1) cs).inside
        ((delimited (· = ')') (pos + 1) cs).stop + 1) (delimited (· = ')') (pos + 1) cs).next
        (delimited (· = ')') (pos + 1) cs).rest))
    (quote : motive
      (.token (.string (String.ofList (delimited (· = '"') (pos + 1) cs).inside))
        (delimited (· = '"') (pos + 1) cs).next (delimited (· = '"') (pos + 1) cs).rest))
    (bracket : motive
      (.token (.function (String.ofList (delimited (· = ']') (pos + 1) cs).inside))
        (delimited (· = ']') (pos + 1) cs).next (delimited (· = ']') (pos + 1) cs).rest))
    (opening : motive .opening) (closing : motive .closing)
    (blank : motive (.blank (pos + 1) cs))
    (comment : motive
      (.blank (delimited (fun x => x = '\n' ∨ x = '\\') (pos + 1) cs).next
        (delimited (fun x => x = '\n' ∨ x = '\\') (pos + 1) cs).rest))
    (boolean : ∀ b, motive (.token (.boolean b) (pos + 1) cs))
    (operator : isOperator c = true → isReserved c = false →
      motive (.token (.operator (String.singleton c)) (pos + 1) cs))
    (unknown : motive (.invalid ⟨.unknownSymbol (String.singleton c), pos⟩)) :
    motive (lexeme isOperator pos c cs) := by
  unfold lexeme
  by_cases isNumber : isNumeric c = true
  · rw [if_pos isNumber]
    exact numeric isNumber
  rw [if_neg isNumber]
  by_cases isParenthesis : c = '('
  · rw [if_pos isParenthesis]
    exact parenthesis
  rw [if_neg isParenthesis]
  by_cases isQuote : c = '"'
  · rw [if_pos isQuote]
    exact quote
  rw [if_neg isQuote]
  by_cases isBracket : c = '['
  · rw [if_pos isBracket]
    exact bracket
  rw [if_neg isBracket]
  by_cases isOpening : c = '\x7b'
  · rw [if_pos isOpening]
    exact opening
  rw [if_neg isOpening]
  by_cases isClosing : c = '\x7d'
  · rw [if_pos isClosing]
    exact closing
  rw [if_neg isClosing]
  by_cases isBlank : c = ' ' ∨ c = '\t' ∨ c = '\n'
  · rw [if_pos isBlank]
    exact blank
  rw [if_neg isBlank]
  by_cases isComment : c = '\\'
  · rw [if_pos isComment]
    exact comment
  rw [if_neg isComment]
  by_cases isTrue : c = 'T'
  · rw [if_pos isTrue]
    exact boolean true
  rw [if_neg isTrue]
  by_cases isFalse : c = 'F'
  · rw [if_pos isFalse]
    exact boolean false
  rw [if_neg isFalse]
  by_cases isKnown : isOperator c = true
  · rw [if_pos isKnown]
    refine operator isKnown ?_
    simp_all [isReserved]
  · rw [if_neg isKnown]
    exact unknown

/-- A lexeme at offset `pos`, followed by `length` characters after its first one, takes at least
that one, and no character is lost between it and the text after it. -/
def Lexeme.Spans (pos length : Nat) : Lexeme → Prop
  | .token _ next rest | .blank next rest =>
    pos < next ∧ next + rest.length = pos + (length + 1)
  | .opening | .closing | .invalid _ => True

theorem ofNumeral_spans {pos length next : Nat} {rest : List Char} (forward : pos < next)
    (whole : next + rest.length = pos + (length + 1)) (text : List Char) (offset : Nat) :
    (Lexeme.ofNumeral text offset next rest).Spans pos length := by
  unfold Lexeme.ofNumeral
  split
  · exact ⟨forward, whole⟩
  · trivial

theorem lexeme_spans (isOperator : Char → Bool) (pos : Nat) (c : Char) (cs : List Char) :
    (lexeme isOperator pos c cs).Spans pos cs.length := by
  have closed : ∀ isCloser : Char → Bool,
      pos < (delimited isCloser (pos + 1) cs).next ∧
      (delimited isCloser (pos + 1) cs).next + (delimited isCloser (pos + 1) cs).rest.length =
        pos + (cs.length + 1) := by
    intro isCloser
    have spans := delimited_spans isCloser (pos + 1) cs
    omega
  have single : pos < pos + 1 ∧ pos + 1 + cs.length = pos + (cs.length + 1) := by omega
  apply lexeme_cases
  case numeric =>
    intro _
    have whole := congrArg List.length
      (List.takeWhile_append_dropWhile (p := isNumeric) (l := cs))
    rw [List.length_append] at whole
    apply ofNumeral_spans <;> omega
  case parenthesis => exact ofNumeral_spans (closed _).1 (closed _).2 _ _
  case quote => exact closed _
  case bracket => exact closed _
  case opening => trivial
  case closing => trivial
  case blank => exact single
  case comment => exact closed _
  case boolean => exact fun _ => single
  case operator => exact fun _ _ => single
  case unknown => trivial

theorem lexeme_token_spans {pos next : Nat} {c : Char} {cs rest : List Char} {value : Value}
    (isToken : lexeme isOperator pos c cs = .token value next rest) :
    pos < next ∧ next + rest.length = pos + (cs.length + 1) := by
  have spans := lexeme_spans isOperator pos c cs
  rwa [isToken] at spans

theorem lexeme_blank_spans {pos next : Nat} {c : Char} {cs rest : List Char}
    (isBlank : lexeme isOperator pos c cs = .blank next rest) :
    pos < next ∧ next + rest.length = pos + (cs.length + 1) := by
  have spans := lexeme_spans isOperator pos c cs
  rwa [isBlank] at spans

/-- What a stretch leaves ends the text it was read from, and its cursor stands right before. -/
theorem Reads.spans {pos : Nat} {cs : List Char} {s : Stretch}
    (reads : Reads isOperator pos cs (.ok s)) :
    pos ≤ s.cursor ∧ s.cursor + s.rest.length = pos + cs.length := by
  generalize outcome : Except.ok s = result at reads
  induction reads generalizing s with
  | finish =>
    cases outcome
    exact ⟨le_refl _, rfl⟩
  | @token _ _ _ _ _ _ result isToken _ inductionHypothesis =>
    cases result with
    | error => cases outcome
    | ok later =>
      cases outcome
      have first := lexeme_token_spans isToken
      have others := inductionHypothesis rfl
      simp only [Stretch.prepend, List.length_cons]
      omega
  | blank isBlank _ inductionHypothesis =>
    have first := lexeme_blank_spans isBlank
    have others := inductionHypothesis outcome
    simp only [List.length_cons]
    omega
  | @block _ _ _ inner result _ _ _ innerHypothesis laterHypothesis =>
    cases result with
    | error => cases outcome
    | ok later =>
      cases outcome
      have inside := innerHypothesis rfl
      have others := laterHypothesis rfl
      simp only [Stretch.prepend, List.length_cons]
      simp only [Stretch.after] at others
      cases shape : inner.rest with
      | nil =>
        simp [shape] at inside others
        omega
      | cons =>
        simp [shape] at inside others
        omega
  | badBlock => cases outcome
  | closing =>
    cases outcome
    exact ⟨le_refl _, rfl⟩
  | invalid => cases outcome

/-- With fuel above the length of the text, the reader reads it. -/
theorem reads_stretch (isOperator : Char → Bool) {fuel : Nat} (pos : Nat) {cs : List Char}
    (enough : cs.length < fuel) :
    Reads isOperator pos cs (stretch isOperator fuel pos cs) := by
  induction fuel generalizing pos cs with
  | zero => cases enough
  | succ fuel inductionHypothesis =>
    cases cs with
    | nil => exact .finish
    | cons c cs =>
      rw [List.length_cons] at enough
      rw [stretch_cons]
      cases first : lexeme isOperator pos c cs with
      | token value next rest =>
        have spans := lexeme_token_spans first
        exact .token first (inductionHypothesis next (by omega))
      | blank next rest =>
        have spans := lexeme_blank_spans first
        exact .blank first (inductionHypothesis next (by omega))
      | opening =>
        have inside : Reads isOperator (pos + 1) cs (stretch isOperator fuel (pos + 1) cs) :=
          inductionHypothesis (pos + 1) (by omega)
        simp only
        cases read : stretch isOperator fuel (pos + 1) cs with
        | error error =>
          rw [read] at inside
          exact .badBlock first inside
        | ok inner =>
          rw [read] at inside
          have spans := inside.spans
          refine .block first inside (inductionHypothesis inner.after ?_)
          rw [List.length_tail]
          omega
      | closing => exact .closing first
      | invalid error => exact .invalid first

/-- And reads it in no other way. -/
theorem Reads.stretch_eq {pos : Nat} {cs : List Char} {result : Except ReadError Stretch}
    (reads : Reads isOperator pos cs result) {fuel : Nat} (enough : cs.length < fuel) :
    stretch isOperator fuel pos cs = result := by
  induction reads generalizing fuel with
  | finish =>
    cases fuel with
    | zero => cases enough
    | succ => rfl
  | token isToken _ inductionHypothesis =>
    obtain ⟨fuel, rfl⟩ := Nat.exists_eq_add_one_of_ne_zero (Nat.ne_zero_of_lt enough)
    have spans := lexeme_token_spans isToken
    rw [List.length_cons] at enough
    rw [stretch_cons, isToken]
    simp only
    rw [inductionHypothesis (by omega)]
  | blank isBlank _ inductionHypothesis =>
    obtain ⟨fuel, rfl⟩ := Nat.exists_eq_add_one_of_ne_zero (Nat.ne_zero_of_lt enough)
    have spans := lexeme_blank_spans isBlank
    rw [List.length_cons] at enough
    rw [stretch_cons, isBlank]
    exact inductionHypothesis (by omega)
  | block isOpening inside _ innerHypothesis laterHypothesis =>
    obtain ⟨fuel, rfl⟩ := Nat.exists_eq_add_one_of_ne_zero (Nat.ne_zero_of_lt enough)
    have spans := inside.spans
    rw [List.length_cons] at enough
    rw [stretch_cons, isOpening]
    simp only
    rw [innerHypothesis (by omega), Except.bind, laterHypothesis (by rw [List.length_tail]; omega)]
  | badBlock isOpening _ inductionHypothesis =>
    obtain ⟨fuel, rfl⟩ := Nat.exists_eq_add_one_of_ne_zero (Nat.ne_zero_of_lt enough)
    rw [List.length_cons] at enough
    rw [stretch_cons, isOpening]
    simp only
    rw [inductionHypothesis (by omega), Except.bind]
  | closing isClosing =>
    obtain ⟨fuel, rfl⟩ := Nat.exists_eq_add_one_of_ne_zero (Nat.ne_zero_of_lt enough)
    rw [stretch_cons, isClosing]
  | invalid isInvalid =>
    obtain ⟨fuel, rfl⟩ := Nat.exists_eq_add_one_of_ne_zero (Nat.ne_zero_of_lt enough)
    rw [stretch_cons, isInvalid]

theorem read_eq_ok_iff (isOperator : Char → Bool) (source : String) (reading : Reading) :
    read isOperator source = .ok reading ↔
      ∃ s, Reads isOperator 0 source.toList (.ok s) ∧ reading = ⟨s.cursor, s.tokens⟩ := by
  have reads := reads_stretch isOperator 0 (Nat.lt_succ_self source.toList.length)
  unfold read ofChars
  constructor
  · intro success
    cases result : stretch isOperator (source.toList.length + 1) 0 source.toList with
    | error error =>
      rw [result] at success
      cases success
    | ok s =>
      rw [result] at success reads
      cases success
      exact ⟨s, reads, rfl⟩
  · rintro ⟨s, stretchReads, rfl⟩
    rw [stretchReads.stretch_eq (Nat.lt_succ_self _)]
    rfl

end Cairn.Reading
