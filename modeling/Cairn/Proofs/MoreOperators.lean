import Cairn.Machine.Basic
import Cairn.Proofs.Lexemes
import Cairn.Proofs.Tables
import Mathlib

set_option autoImplicit false

/-!
# More operators

The table of operators is asked about one character at a time, and only about characters that
nothing else in the language starts with. So a text that reads keeps its reading when operators come
in, a bad numeral stays where it was, and an operator on a reserved character is never met.
-/

namespace Cairn

namespace Reading

variable {isOperator isOperator' : Char → Bool} {pos : Nat} {c : Char} {cs : List Char}

/-- The table is only asked about characters that are not reserved. -/
theorem lexeme_congr (same : isReserved c = false → isOperator c = isOperator' c) (pos : Nat)
    (cs : List Char) : lexeme isOperator pos c cs = lexeme isOperator' pos c cs := by
  by_cases reserved : isReserved c = true
  · simp only [isReserved, Bool.or_eq_true, decide_eq_true_eq, List.mem_cons, List.not_mem_nil,
      or_false] at reserved
    rcases reserved with numeric | rfl | rfl | rfl | rfl | rfl | rfl | rfl | rfl | rfl | rfl | rfl
    · rw [lexeme, lexeme, if_pos numeric, if_pos numeric]
    all_goals rfl
  · rw [lexeme, lexeme, same (by simpa using reserved)]

theorem lexeme_unknown (free : isReserved c = false) (unknown : isOperator c = false) (pos : Nat)
    (cs : List Char) :
    lexeme isOperator pos c cs = .invalid ⟨.unknownSymbol (String.singleton c), pos⟩ := by
  simp only [isReserved, Bool.or_eq_false_iff, decide_eq_false_iff_not, List.mem_cons,
    List.not_mem_nil, or_false, not_or] at free
  simp [lexeme, free, unknown]

/-- With more operators a lexeme stays as it is, unless it was a character that was no operator. -/
theorem lexeme_mono (more : isOperator c = true → isOperator' c = true) (pos : Nat)
    (cs : List Char) :
    lexeme isOperator pos c cs = lexeme isOperator' pos c cs ∨
      ∃ symbol, lexeme isOperator pos c cs = .invalid ⟨.unknownSymbol symbol, pos⟩ := by
  by_cases known : isReserved c = false ∧ isOperator c = false
  · exact .inr ⟨_, lexeme_unknown known.1 known.2 pos cs⟩
  · refine .inl (lexeme_congr (fun free => ?_) pos cs)
    have operator : isOperator c = true := by simpa [free] using known
    rw [operator, more operator]

/-- A result that does not complain of an unknown symbol. -/
def Knows {α : Type} (result : Except ReadError α) : Prop :=
  ∀ symbol offset, result ≠ .error ⟨.unknownSymbol symbol, offset⟩

theorem Knows.of_map {α β : Type} {f : α → β} {result : Except ReadError α}
    (knows : Knows (result.map f)) : Knows result := by
  rintro symbol offset rfl
  exact knows symbol offset rfl

/-- What reads without an unknown symbol reads the same with more operators. -/
theorem Reads.mono (more : ∀ c, isOperator c = true → isOperator' c = true)
    {result : Except ReadError Stretch} (reads : Reads isOperator pos cs result)
    (knows : Knows result) : Reads isOperator' pos cs result := by
  have kept : ∀ {pos : Nat} {c : Char} {cs : List Char} {lexed : Lexeme},
      lexeme isOperator pos c cs = lexed →
      (∀ symbol, lexed ≠ .invalid ⟨.unknownSymbol symbol, pos⟩) →
      lexeme isOperator' pos c cs = lexed := by
    rintro pos c cs _ rfl known
    rcases lexeme_mono (more c) pos cs with same | ⟨symbol, unknown⟩
    · exact same.symm
    · exact absurd unknown (known symbol)
  induction reads with
  | finish => exact .finish
  | token isToken _ inductionHypothesis =>
    exact .token (kept isToken (by simp)) (inductionHypothesis knows.of_map)
  | blank isBlank _ inductionHypothesis =>
    exact .blank (kept isBlank (by simp)) (inductionHypothesis knows)
  | block isOpening _ _ innerHypothesis laterHypothesis =>
    exact .block (kept isOpening (by simp)) (innerHypothesis (by simp [Knows]))
      (laterHypothesis knows.of_map)
  | badBlock isOpening _ inductionHypothesis =>
    refine .badBlock (kept isOpening (by simp)) (inductionHypothesis ?_)
    rintro symbol offset ⟨⟩
    exact knows symbol offset rfl
  | closing isClosing => exact .closing (kept isClosing (by simp))
  | invalid isInvalid =>
    refine .invalid (kept isInvalid ?_)
    rintro symbol ⟨⟩
    exact knows symbol _ rfl

theorem stretch_congr (same : ∀ c, isReserved c = false → isOperator c = isOperator' c)
    (fuel pos : Nat) (cs : List Char) :
    stretch isOperator fuel pos cs = stretch isOperator' fuel pos cs := by
  induction fuel generalizing pos cs with
  | zero => rfl
  | succ fuel inductionHypothesis =>
    cases cs with
    | nil => rfl
    | cons c cs =>
      simp only [stretch_cons, lexeme_congr (same c), inductionHypothesis]

theorem read_congr (same : ∀ c, isReserved c = false → isOperator c = isOperator' c)
    (source : String) : read isOperator source = read isOperator' source := by
  rw [read, read, ofChars, ofChars, stretch_congr same]

theorem read_mono (more : ∀ c, isOperator c = true → isOperator' c = true) {source : String}
    (knows : Knows (read isOperator source)) :
    read isOperator' source = read isOperator source := by
  have reads := reads_stretch isOperator 0 (Nat.lt_succ_self source.toList.length)
  have knowsStretch : Knows (stretch isOperator source.toList.length.succ 0 source.toList) := by
    rintro symbol offset failed
    apply knows symbol offset
    rw [read, ofChars, ← Nat.succ_eq_add_one, failed]
    rfl
  rw [read, read, ofChars, ofChars, ← Nat.succ_eq_add_one,
    (reads.mono more knowsStretch).stretch_eq (Nat.lt_succ_self _)]

end Reading

open Reading

namespace Machine

theorem assignOperator_single (m : Machine) (c : Char) (name : String) :
    m.assignOperator (String.singleton c) name =
      .ok { m with operators := m.operators.insert (String.singleton c) name } := by
  simp [assignOperator]

theorem isOperator_insert (m : Machine) (symbol name : String) (d : Char) :
    isOperator { m with operators := m.operators.insert symbol name } d =
      (m.isOperator d || String.singleton d = symbol) := by
  rw [Bool.eq_iff_iff]
  simp only [isOperator, Table.contains_iff, Table.keys_insert, Bool.or_eq_true, decide_eq_true_eq]
  split
  next known =>
    rw [or_iff_left_of_imp]
    rintro rfl
    exact known
  next => simp

theorem isOperator_erase (m : Machine) (symbol : String) (d : Char) :
    isOperator { m with operators := m.operators.erase symbol } d =
      (m.isOperator d && String.singleton d ≠ symbol) := by
  rw [Bool.eq_iff_iff]
  simp [isOperator, Table.contains_iff, Table.keys_erase]

/-- An operator on a reserved character is no different from none. -/
theorem parse_congr {m m' : Machine} {c : Char} (reserved : isReserved c = true)
    (same : ∀ d, d ≠ c → m'.isOperator d = m.isOperator d) (source : String) :
    m'.parse source = m.parse source := by
  have congr : read m'.isOperator source = read m.isOperator source := by
    apply read_congr
    intro d free
    apply same
    rintro rfl
    rw [reserved] at free
    cases free
  rw [parse, parse, congr]

end Machine

/-- More operators change nothing about what reads already, nor about a bad numeral, and reserved
characters change nothing as operators. -/
theorem more_operators_change_no_reading (isOperator isOperator' : Char → Bool) (source : String) :
    ((∀ c, isOperator c = true → isOperator' c = true) →
      (∀ reading, read isOperator source = .ok reading → read isOperator' source = .ok reading) ∧
      ∀ text offset, read isOperator source = .error ⟨.badNumber text, offset⟩ →
        read isOperator' source = .error ⟨.badNumber text, offset⟩) ∧
    ((∀ c, isReserved c = false → isOperator c = isOperator' c) →
      read isOperator source = read isOperator' source) ∧
    ∀ (m : Machine) (c : Char) (name : String), isReserved c = true →
      (∃ m', m.assignOperator (String.singleton c) name = .ok m' ∧
        m'.operators.contains (String.singleton c) = true ∧
        m'.parse source = m.parse source) ∧
      (m.forgetOperator (String.singleton c)).2.parse source = m.parse source := by
  refine ⟨fun more => ⟨?_, ?_⟩, fun same => read_congr same source, ?_⟩
  · intro reading success
    rw [read_mono more (by simp [Knows, success]), success]
  · intro text offset failed
    rw [read_mono more (by simp [Knows, failed, Cause.unknownSymbol]), failed]
  · intro m c name reserved
    refine ⟨⟨_, m.assignOperator_single c name, ?_, ?_⟩, ?_⟩
    · exact (m.isOperator_insert _ name c).trans (by simp)
    · apply Machine.parse_congr reserved
      intro d other
      rw [Machine.isOperator_insert]
      simp [String.singleton_inj, other]
    · apply Machine.parse_congr reserved
      intro d other
      rw [Machine.forgetOperator, Machine.isOperator_erase]
      simp [String.singleton_inj, other]

/-- Two more operators, one of them a parenthesis, for a text that reads and for one whose numeral
is bad; and the parenthesis for a machine without operators. -/
theorem more_operators_change_no_reading_parenthesis :
    (∀ c, (c == '+') = true → (c == '+' || c == '(' || c == '?') = true) ∧
    (∃ reading, read (· == '+') "\x7b+(1)[?" = .ok reading ∧
      read (fun c => c == '+' || c == '(' || c == '?') "\x7b+(1)[?" = .ok reading) ∧
    read (fun c => c == '+' || c == '(' || c == '?') "\x7b+(x)?" =
      .error ⟨.badNumber "x", 5⟩ ∧
    isReserved '(' = true ∧
    ∃ m', Machine.assignOperator {} (String.singleton '(') "open" = .ok m' ∧
      m'.parse "(x)?" = Machine.parse {} "(x)?" := by
  have more : ∀ c, (c == '+') = true → (c == '+' || c == '(' || c == '?') = true := by
    intro c plus
    rw [plus]
    rfl
  have reads : ∃ reading, read (· == '+') "\x7b+(1)[?" = .ok reading := ⟨_, rfl⟩
  obtain ⟨reading, reads⟩ := reads
  have kept := ((more_operators_change_no_reading _ _ "\x7b+(1)[?").1 more).1 reading reads
  have bad := ((more_operators_change_no_reading _ _ "\x7b+(x)?").1 more).2 "x" 5 rfl
  obtain ⟨m', assigned, -, same⟩ :=
    ((more_operators_change_no_reading (· == '+') (· == '+') "(x)?").2.2 {} '(' "open" rfl).1
  exact ⟨more, ⟨reading, reads, kept⟩, bad, rfl, m', assigned, same⟩

end Cairn
