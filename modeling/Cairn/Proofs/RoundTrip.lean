import Cairn.Proofs.Lexemes
import Cairn.Proofs.Numerals
import Mathlib

set_option autoImplicit false

/-!
# Printing and reading

The source of a value reads back to the value exactly when the value is readable, and whatever the
reader produces is readable. A value in a text is followed by a blank, a brace or the end, so that
a bare numeral never runs into what comes after it.
-/

namespace Cairn

open Reading

/-- Values that have a source, for a table of operators: texts without their closing character,
and operators that the reader takes for operators. -/
inductive Value.Readable (isOperator : Char → Bool) : Value → Prop
  | string {text : String} : '"' ∉ text.toList → Readable isOperator (.string text)
  | number (x : Float) : Readable isOperator (.number x)
  | function {name : String} : ']' ∉ name.toList → Readable isOperator (.function name)
  | block {body : List Value} :
      (∀ v ∈ body, Readable isOperator v) → Readable isOperator (.block body)
  | operator {c : Char} : isOperator c = true → isReserved c = false →
      Readable isOperator (.operator (String.singleton c))
  | boolean (b : Bool) : Readable isOperator (.boolean b)

variable {isOperator : Char → Bool}

namespace Reading

theorem not_mem_inside (closer : Char) (start : Nat) (cs : List Char) :
    closer ∉ (delimited (· = closer) start cs).inside := by
  have inside : (delimited (· = closer) start cs).inside =
      cs.takeWhile (fun c => !decide (c = closer)) := by
    unfold delimited
    dsimp only
    split <;> rfl
  intro member
  rw [inside] at member
  simpa using List.mem_takeWhile_imp member

/-- The token of a lexeme, if it is one, is readable. -/
def Lexeme.Readable (isOperator : Char → Bool) : Lexeme → Prop
  | .token value _ _ => value.Readable isOperator
  | .blank .. | .opening | .closing | .invalid _ => True

theorem ofNumeral_readable (text : List Char) (offset next : Nat) (rest : List Char) :
    (Lexeme.ofNumeral text offset next rest).Readable isOperator := by
  unfold Lexeme.ofNumeral
  split
  · exact .number _
  · trivial

theorem lexeme_readable (isOperator : Char → Bool) (pos : Nat) (c : Char) (cs : List Char) :
    (lexeme isOperator pos c cs).Readable isOperator := by
  apply lexeme_cases
  case numeric => exact fun _ => ofNumeral_readable _ _ _ _
  case parenthesis => exact ofNumeral_readable _ _ _ _
  case quote => exact .string (by simpa using not_mem_inside '"' _ _)
  case bracket => exact .function (by simpa using not_mem_inside ']' _ _)
  case boolean => exact fun b => .boolean b
  case operator => exact fun known free => .operator known free
  all_goals trivial

/-- Whatever the reader produces is readable. -/
theorem Reads.readable {pos : Nat} {cs : List Char} {s : Stretch}
    (reads : Reads isOperator pos cs (.ok s)) : ∀ v ∈ s.tokens, v.Readable isOperator := by
  generalize outcome : Except.ok s = result at reads
  induction reads generalizing s with
  | finish =>
    cases outcome
    simp
  | @token pos c cs _ _ _ result isToken _ inductionHypothesis =>
    cases result with
    | error => cases outcome
    | ok later =>
      cases outcome
      intro v member
      rcases List.mem_cons.mp member with rfl | inLater
      · have readable := lexeme_readable isOperator pos c cs
        rwa [isToken] at readable
      · exact inductionHypothesis rfl v inLater
  | blank _ _ inductionHypothesis => exact inductionHypothesis outcome
  | @block _ _ _ inner result _ _ _ innerHypothesis laterHypothesis =>
    cases result with
    | error => cases outcome
    | ok later =>
      cases outcome
      intro v member
      rcases List.mem_cons.mp member with rfl | inLater
      · exact .block (innerHypothesis rfl)
      · exact laterHypothesis rfl v inLater
  | badBlock => cases outcome
  | closing =>
    cases outcome
    simp
  | invalid => cases outcome

theorem delimited_append {closer : Char} {inside : List Char} (free : closer ∉ inside)
    (start : Nat) (rest : List Char) :
    delimited (· = closer) start (inside ++ closer :: rest) =
      ⟨inside, start + inside.length, start + inside.length + 1, rest⟩ := by
  have before : ∀ c ∈ inside, (!decide (c = closer)) = true := by
    intro c member
    simp only [Bool.not_eq_true', decide_eq_false_iff_not]
    rintro rfl
    exact free member
  have stops : ∀ c ∈ (closer :: rest).head?, (!decide (c = closer)) = false := by simp
  unfold delimited
  simp only [takeWhile_of_stop before stops, dropWhile_of_stop before stops]

theorem lexeme_string {text : String} (free : '"' ∉ text.toList) (pos : Nat)
    (rest : List Char) :
    lexeme isOperator pos '"' (text.toList ++ '"' :: rest) =
      .token (.string text) (pos + 1 + text.toList.length + 1) rest := by
  rw [lexeme, if_neg (by decide), if_neg (by decide), if_pos rfl, delimited_append free]
  simp

theorem lexeme_function {name : String} (free : ']' ∉ name.toList) (pos : Nat)
    (rest : List Char) :
    lexeme isOperator pos '[' (name.toList ++ ']' :: rest) =
      .token (.function name) (pos + 1 + name.toList.length + 1) rest := by
  rw [lexeme, if_neg (by decide), if_neg (by decide), if_neg (by decide), if_pos rfl,
    delimited_append free]
  simp

theorem lexeme_parenthesized (x : Float) (pos : Nat) (rest : List Char) :
    lexeme isOperator pos '(' ((Number.exactText x).toList ++ ')' :: rest) =
      .token (.number x) (pos + 1 + (Number.exactText x).toList.length + 1) rest := by
  rw [lexeme, if_neg (by decide), if_pos rfl,
    delimited_append (Number.closer_not_mem_exactText x)]
  simp only [Lexeme.ofNumeral, Number.numeralOfChars?_exactText]

theorem lexeme_bare {x : Float} {c : Char} {cs rest : List Char}
    (text : (Number.exactText x).toList = c :: cs) (bare : ∀ d ∈ c :: cs, isNumeric d = true)
    (stops : ∀ d ∈ rest.head?, isNumeric d = false) (pos : Nat) :
    lexeme isOperator pos c (cs ++ rest) =
      .token (.number x) (pos + 1 + cs.length) rest := by
  have others : ∀ d ∈ cs, isNumeric d = true := fun d member => bare d (by simp [member])
  have read := Number.numeralOfChars?_exactText x
  rw [text] at read
  rw [lexeme, if_pos (bare c (by simp)), takeWhile_of_stop others stops,
    dropWhile_of_stop others stops]
  simp only [Lexeme.ofNumeral, read]

theorem lexeme_operator {c : Char} (known : isOperator c = true) (free : isReserved c = false)
    (pos : Nat) (cs : List Char) :
    lexeme isOperator pos c cs = .token (.operator (String.singleton c)) (pos + 1) cs := by
  simp only [isReserved, Bool.or_eq_false_iff, decide_eq_false_iff_not, List.mem_cons,
    List.not_mem_nil, or_false, not_or] at free
  obtain ⟨notNumeric, notParenthesis, notQuote, notBracket, notOpening, notClosing, notSpace,
    notTab, notNewline, notComment, notTrue, notFalse⟩ := free
  rw [lexeme, if_neg (by simp [notNumeric]), if_neg notParenthesis, if_neg notQuote,
    if_neg notBracket, if_neg notOpening, if_neg notClosing,
    if_neg (by simp [notSpace, notTab, notNewline]), if_neg notComment, if_neg notTrue,
    if_neg notFalse, if_pos known]

/-- The source of a value, with more text behind it that no numeral runs into, reads as the value
and then as the text does. -/
def ReadsBack (isOperator : Char → Bool) (v : Value) : Prop :=
  ∀ (pos : Nat) (rest : List Char) (result : Except ReadError Stretch),
    (∀ c ∈ rest.head?, isNumeric c = false) →
    Reads isOperator (pos + v.source.toList.length) rest result →
    Reads isOperator pos (v.source.toList ++ rest) (result.map (Stretch.prepend v))

theorem readsBack_delimited {v : Value} {opener closer : Char} {inside : List Char}
    (source : v.source.toList = opener :: (inside ++ [closer]))
    (lexemes : ∀ pos rest, lexeme isOperator pos opener (inside ++ closer :: rest) =
      .token v (pos + 1 + inside.length + 1) rest) :
    ReadsBack isOperator v := by
  intro pos rest result _ reads
  have text : v.source.toList ++ rest = opener :: (inside ++ closer :: rest) := by
    simp [source]
  have offset : pos + v.source.toList.length = pos + 1 + inside.length + 1 := by
    rw [source, List.length_cons, List.length_append, List.length_singleton]
    omega
  rw [text]
  rw [offset] at reads
  exact .token (lexemes pos rest) reads

theorem readsBack_number (x : Float) : ReadsBack isOperator (.number x) := by
  have nonempty : (Number.exactText x).toList ≠ [] := by
    intro empty
    have read := Number.numeralOfChars?_exactText x
    rw [empty] at read
    cases read
  obtain ⟨c, cs, text⟩ := List.exists_cons_of_ne_nil nonempty
  by_cases bare : (Number.exactText x).toList.all (fun d => d.isDigit || d = '.') = true
  · intro pos rest result stops reads
    have source : (Value.number x).source = Number.exactText x := if_pos bare
    rw [source, text] at reads ⊢
    have numeric : ∀ d ∈ c :: cs, isNumeric d = true := by
      intro d member
      rw [text, List.all_eq_true] at bare
      rw [isNumeric, bare d member, Bool.true_or]
    refine .token (lexeme_bare text numeric stops pos) ?_
    rwa [List.length_cons, ← Nat.add_assoc, Nat.add_right_comm] at reads
  · apply readsBack_delimited
    · have source : (Value.number x).source = "(" ++ Number.exactText x ++ ")" := if_neg bare
      rw [source, String.toList_append, String.toList_append]
      rfl
    · exact fun pos rest => lexeme_parenthesized x pos rest

theorem readsBack_single {v : Value} {c : Char} (source : v.source.toList = [c])
    (lexemes : ∀ pos cs, lexeme isOperator pos c cs = .token v (pos + 1) cs) :
    ReadsBack isOperator v := by
  intro pos rest result _ reads
  rw [source] at reads ⊢
  exact .token (lexemes pos rest) reads

/-- The sources of values with a blank between them. -/
def joined (values : List Value) : String := " ".intercalate (values.map Value.source)

theorem joined_cons_cons (v w : Value) (values : List Value) :
    (joined (v :: w :: values)).toList =
      v.source.toList ++ ' ' :: (joined (w :: values)).toList := by
  simp [joined, String.intercalate_cons_cons]

theorem reads_end {rest : List Char} (ends : ∀ c ∈ rest.head?, c = '\x7d') (pos : Nat) :
    Reads isOperator pos rest (.ok ⟨[], pos, rest⟩) := by
  cases rest with
  | nil => exact .finish
  | cons c rest =>
    cases ends c rfl
    exact .closing rfl

/-- Sources with a blank between them, up to the end or a closing brace, read as the values. -/
theorem reads_joined {values : List Value} (back : ∀ v ∈ values, ReadsBack isOperator v)
    {rest : List Char} (ends : ∀ c ∈ rest.head?, c = '\x7d') (pos : Nat) :
    Reads isOperator pos ((joined values).toList ++ rest)
      (.ok ⟨values, pos + (joined values).toList.length, rest⟩) := by
  induction values generalizing pos with
  | nil => exact reads_end ends pos
  | cons v values inductionHypothesis =>
    have first := back v (by simp)
    cases values with
    | nil =>
      have stops : ∀ c ∈ rest.head?, isNumeric c = false := by
        intro c member
        rw [ends c member]
        rfl
      have single : joined [v] = v.source := by simp [joined]
      rw [single]
      exact first pos rest _ stops (reads_end ends _)
    | cons w values =>
      have others := inductionHypothesis (fun u member => back u (List.mem_cons_of_mem v member))
        (pos + v.source.toList.length + 1)
      have length : pos + (joined (v :: w :: values)).toList.length =
          pos + v.source.toList.length + 1 + (joined (w :: values)).toList.length := by
        rw [joined_cons_cons, List.length_append, List.length_cons]
        omega
      rw [length, joined_cons_cons, List.append_assoc, List.cons_append]
      exact first pos _ _ (by simp [isNumeric]) (.blank rfl others)

theorem sources_eq_map (values : List Value) : Value.sources values = values.map Value.source := by
  induction values with
  | nil => rfl
  | cons v values inductionHypothesis => simp [Value.sources, inductionHypothesis]

theorem readsBack_block {body : List Value} (back : ∀ v ∈ body, ReadsBack isOperator v) :
    ReadsBack isOperator (.block body) := by
  intro pos rest result _ reads
  have source : (Value.block body).source.toList =
      '\x7b' :: ((joined body).toList ++ ['\x7d']) := by
    simp [Value.source, sources_eq_map, joined]
  have offset : pos + (Value.block body).source.toList.length =
      pos + 1 + (joined body).toList.length + 1 := by
    rw [source, List.length_cons, List.length_append, List.length_singleton]
    omega
  have inside : Reads isOperator (pos + 1) ((joined body).toList ++ '\x7d' :: rest)
      (.ok ⟨body, pos + 1 + (joined body).toList.length, '\x7d' :: rest⟩) :=
    reads_joined back (by simp) (pos + 1)
  rw [offset] at reads
  rw [source, List.cons_append, List.append_assoc, List.singleton_append]
  exact .block rfl inside reads

end Reading

theorem Value.Readable.readsBack {v : Value} (readable : v.Readable isOperator) :
    ReadsBack isOperator v := by
  induction readable with
  | string free =>
    exact readsBack_delimited (by simp [Value.source]) fun pos rest => lexeme_string free pos rest
  | number x => exact readsBack_number x
  | function free =>
    exact readsBack_delimited (by simp [Value.source]) fun pos rest => lexeme_function free pos rest
  | block _ inductionHypothesis => exact readsBack_block inductionHypothesis
  | operator known free =>
    exact readsBack_single (by simp [Value.source]) fun pos cs => lexeme_operator known free pos cs
  | boolean b => cases b <;> exact readsBack_single rfl fun pos cs => rfl

theorem read_joined {values : List Value} (readable : ∀ v ∈ values, v.Readable isOperator) :
    read isOperator (joined values) = .ok ⟨(joined values).length, values⟩ := by
  rw [read_eq_ok_iff]
  have reads : Reads isOperator 0 ((joined values).toList ++ [])
      (.ok ⟨values, 0 + (joined values).toList.length, []⟩) :=
    reads_joined (fun v member => (readable v member).readsBack) (by simp) 0
  rw [List.append_nil, Nat.zero_add, String.length_toList] at reads
  exact ⟨_, reads, rfl⟩

/-- Whatever the reader produces is readable. -/
theorem readable_of_read {source : String} {reading : Reading}
    (success : read isOperator source = .ok reading) :
    ∀ v ∈ reading.tokens, v.Readable isOperator := by
  obtain ⟨s, reads, rfl⟩ := (read_eq_ok_iff isOperator source reading).mp success
  exact reads.readable

/-- Sources joined by blanks read back to their values exactly when all the values are readable, and
every text that reads at all reads as readable values. -/
theorem read_sources_eq_iff_readable (isOperator : Char → Bool) :
    (∀ values : List Value,
      read isOperator (" ".intercalate (values.map Value.source)) =
          .ok ⟨(" ".intercalate (values.map Value.source)).length, values⟩ ↔
        ∀ v ∈ values, v.Readable isOperator) ∧
    ∀ (source : String) (reading : Reading), read isOperator source = .ok reading →
      (∀ v ∈ reading.tokens, v.Readable isOperator) ∧
      ∃ cursor, read isOperator (" ".intercalate (reading.tokens.map Value.source)) =
        .ok ⟨cursor, reading.tokens⟩ := by
  refine ⟨fun values => ⟨?_, read_joined⟩, fun source reading success => ⟨?_, ?_⟩⟩
  · intro success
    exact readable_of_read success
  · exact readable_of_read success
  · exact ⟨_, read_joined (readable_of_read success)⟩

/-- A text with a nested block, a bracket in a string and numbers of all forms, for an operator
that looks like a delimiter. -/
theorem read_sources_eq_iff_readable_nested :
    ∃ reading, read (· = ')') "\x7b(-0).5\"]\"\x7b)T\x7d(NaN)\x7d [\"x" = .ok reading ∧
      reading.cursor = 24 ∧ (∀ v ∈ reading.tokens, v.Readable (· = ')')) ∧
      ∃ cursor, read (· = ')') (" ".intercalate (reading.tokens.map Value.source)) =
        .ok ⟨cursor, reading.tokens⟩ := by
  have success : ∃ tokens, read (· = ')') "\x7b(-0).5\"]\"\x7b)T\x7d(NaN)\x7d [\"x" =
      .ok ⟨24, tokens⟩ := ⟨_, rfl⟩
  obtain ⟨tokens, success⟩ := success
  obtain ⟨readable, again⟩ := (read_sources_eq_iff_readable (· = ')')).2 _ _ success
  exact ⟨⟨24, tokens⟩, success, rfl, readable, again⟩

end Cairn
