import Cairn.PointReading
import Cairn.Proofs.NumeralGrammar

set_option autoImplicit false

/-!
# Reading code points

What the reader does with a text does not depend on which points stand for no plain character, only
on which of them are operators. So the points can be renamed to characters, and the reader on points
does what the reader on characters does with the renamed text.
-/

namespace Cairn

namespace Points

open Cairn.Reading (delimited isNumeric)

/-- Characters of which some mean something to the reader by themselves. -/
def IsPlain (c : Char) : Prop := 0 < c.toNat ∧ c.toNat < 0x80

instance : DecidablePred IsPlain := fun c =>
  inferInstanceAs (Decidable (0 < c.toNat ∧ c.toNat < 0x80))

theorem isPlain_of_isDigit {c : Char} (digit : c.isDigit = true) : IsPlain c := by
  simp only [Char.isDigit, Bool.and_eq_true, decide_eq_true_eq, UInt32.le_iff_toNat_le,
    ge_iff_le] at digit
  have zero : '0'.val.toNat = 48 := rfl
  have nine : '9'.val.toNat = 57 := rfl
  constructor <;> rw [Char.toNat] <;> omega

theorem isPlain_of_isAlpha {c : Char} (letter : c.isAlpha = true) : IsPlain c := by
  simp only [Char.isAlpha, Char.isUpper, Char.isLower, Bool.or_eq_true, Bool.and_eq_true,
    decide_eq_true_eq, UInt32.le_iff_toNat_le, ge_iff_le] at letter
  have upper : 'A'.val.toNat = 65 ∧ 'Z'.val.toNat = 90 := ⟨rfl, rfl⟩
  have lower : 'a'.val.toNat = 97 ∧ 'z'.val.toNat = 122 := ⟨rfl, rfl⟩
  constructor <;> rw [Char.toNat] <;> omega

theorem isPlain_of_toLower {c : Char} (small : IsPlain c.toLower) : IsPlain c := by
  by_cases letter : c.isAlpha = true
  · exact isPlain_of_isAlpha letter
  · rwa [Number.toLower_of_isAlpha_eq_false (by simpa using letter)] at small

theorem isPlain_of_isNumeric {c : Char} (numeric : isNumeric c = true) : IsPlain c := by
  simp only [isNumeric, Bool.or_eq_true, decide_eq_true_eq] at numeric
  rcases numeric with (digit | rfl) | rfl
  · exact isPlain_of_isDigit digit
  · decide
  · decide

end Points

namespace Number

open Points

variable {cs : List Char}

theorem Digits.isPlain (digits : Digits cs) : ∀ c ∈ cs, IsPlain c :=
  fun c member => isPlain_of_isDigit (digits c member)

theorem IsSign.isPlain {negative : Bool} (isSign : IsSign negative cs) : ∀ c ∈ cs, IsPlain c := by
  have plus : IsPlain '+' := by decide
  have minus : IsPlain '-' := by decide
  cases isSign <;> simp [plus, minus]

theorem IsMantissa.isPlain (isMantissa : IsMantissa cs) : ∀ c ∈ cs, IsPlain c := by
  have point : IsPlain '.' := by decide
  cases isMantissa with
  | whole _ digits => exact digits.isPlain
  | point _ digits fraction =>
    exact List.forall_mem_append.mpr
      ⟨digits.isPlain, List.forall_mem_cons.mpr ⟨point, fraction.isPlain⟩⟩
  | leadingPoint _ fraction => exact List.forall_mem_cons.mpr ⟨point, fraction.isPlain⟩

theorem IsExponent.isPlain (isExponent : IsExponent cs) : ∀ c ∈ cs, IsPlain c := by
  cases isExponent with
  | absent => simp
  | present mark isSign _ digits =>
    simp only [List.forall_mem_cons, List.forall_mem_append]
    exact ⟨by rcases mark with rfl | rfl <;> decide, isSign.isPlain, digits.isPlain⟩

theorem isAlpha_of_mem_word {word : String} (known : word ∈ ["inf", "infinity", "nan"]) :
    ∀ c ∈ word.toList, c.isAlpha = true := by
  simp only [List.mem_cons, List.not_mem_nil, or_false] at known
  rcases known with rfl | rfl | rfl <;> simp

theorem IsNumeral.isPlain (isNumeral : IsNumeral cs) : ∀ c ∈ cs, IsPlain c := by
  obtain ⟨isSign, isUnsigned⟩ := isNumeral
  refine List.forall_mem_append.mpr ⟨isSign.isPlain, ?_⟩
  cases isUnsigned with
  | word known spells =>
    intro c member
    have small : c.toLower ∈ _ := List.mem_map_of_mem member
    rw [spells] at small
    exact isPlain_of_toLower (isPlain_of_isAlpha (isAlpha_of_mem_word known _ small))
  | decimal isMantissa isExponent =>
    exact List.forall_mem_append.mpr ⟨isMantissa.isPlain, isExponent.isPlain⟩

/-- A numeral has only plain characters. -/
theorem isPlain_of_numeralOfChars? (found : (numeralOfChars? cs).isSome = true) :
    ∀ c ∈ cs, IsPlain c := by
  intro c member
  by_cases separator : c = '_'
  · exact separator ▸ by decide
  · exact (isSome_numeralOfChars?_iff.mp found).isPlain c
      (List.mem_filter.mpr ⟨member, by simpa using separator⟩)

end Number

namespace Points

open Cairn.Reading (delimited isNumeric)

variable {isOperator : Nat → Bool} {isOperator' : Char → Bool} {ρ : Nat → Char} {c : Char}

/-- A renaming of points to characters that leaves the plain ones alone and keeps the operators. -/
structure Renames (isOperator : Nat → Bool) (isOperator' : Char → Bool) (ρ : Nat → Char) :
    Prop where
  plain : ∀ p, ρ p = glyph p ∨ ¬ IsPlain (ρ p) ∧ ¬ IsPlain (glyph p)
  operator : ∀ p, isOperator' (ρ p) = isOperator p

namespace Renames

variable (renames : Renames isOperator isOperator' ρ)

include renames

theorem eq_iff (plain : IsPlain c) (p : Nat) : ρ p = c ↔ glyph p = c := by
  rcases renames.plain p with same | ⟨other, other'⟩
  · rw [same]
  · exact iff_of_false (fun same => other (same ▸ plain)) (fun same => other' (same ▸ plain))

theorem isNumeric_eq (p : Nat) : isNumeric (ρ p) = isNumeric (glyph p) := by
  rcases renames.plain p with same | ⟨other, other'⟩
  · rw [same]
  · have notNumeric : ∀ {c : Char}, ¬ IsPlain c → isNumeric c = false := fun other =>
      Bool.eq_false_iff.mpr fun numeric => other (isPlain_of_isNumeric numeric)
    rw [notNumeric other, notNumeric other']

theorem numeralOfChars?_map (text : List Nat) :
    Number.numeralOfChars? (text.map ρ) = Number.numeralOfChars? (text.map glyph) := by
  by_cases same : ∀ p ∈ text, ρ p = glyph p
  · rw [List.map_congr_left same]
  · -- A point that is renamed is in no numeral, neither before nor after.
    simp only [not_forall] at same
    obtain ⟨p, member, other⟩ := same
    obtain ⟨renamed, original⟩ := (renames.plain p).resolve_left other
    have none : ∀ {f : Nat → Char}, ¬ IsPlain (f p) →
        Number.numeralOfChars? (text.map f) = none := by
      intro f other
      rw [← Option.not_isSome_iff_eq_none]
      exact fun found => other
        (Number.isPlain_of_numeralOfChars? found _ (List.mem_map_of_mem member))
    rw [none renamed, none original]

end Renames

mutual

/-- A token with its points renamed. -/
def Token.toValue (ρ : Nat → Char) : Token → Value
  | .string text => .string (String.ofList (text.map ρ))
  | .number x => .number x
  | .function name => .function (String.ofList (name.map ρ))
  | .block body => .block (toValues ρ body)
  | .operator symbol => .operator (String.singleton (ρ symbol))
  | .boolean b => .boolean b

def toValues (ρ : Nat → Char) : List Token → List Value
  | [] => []
  | token :: rest => token.toValue ρ :: toValues ρ rest

end

theorem toValues_append (a b : List Token) :
    toValues ρ (a ++ b) = toValues ρ a ++ toValues ρ b := by
  induction a with
  | nil => rfl
  | cons token a inductionHypothesis => simp [toValues, inductionHypothesis]

def Problem.toCause (ρ : Nat → Char) : Problem → Cause
  | .badNumber text => .badNumber (String.ofList (text.map ρ))
  | .unknownSymbol symbol => .unknownSymbol (String.singleton (ρ symbol))

def ReadError.rename (ρ : Nat → Char) (e : ReadError) : Cairn.ReadError :=
  ⟨e.problem.toCause ρ, e.offset⟩

def Stretch.rename (ρ : Nat → Char) (s : Stretch) : Cairn.Reading.Stretch :=
  ⟨toValues ρ s.tokens, s.cursor, s.rest.map ρ⟩

def Reading.rename (ρ : Nat → Char) (r : Reading) : Cairn.Reading := ⟨r.cursor, toValues ρ r.tokens⟩

/-- A result with its points renamed. -/
def renamed {α β : Type} (ρ : Nat → Char) (rename : α → β) :
    Except ReadError α → Except Cairn.ReadError β
  | .ok a => .ok (rename a)
  | .error e => .error (e.rename ρ)

theorem renamed_bind {α β α' β' : Type} {rename : α → α'} {rename' : β → β'}
    {first : Except ReadError α} {first' : Except Cairn.ReadError α'}
    {next : α → Except ReadError β} {next' : α' → Except Cairn.ReadError β'}
    (same : first' = renamed ρ rename first)
    (later : ∀ a, next' (rename a) = renamed ρ rename' (next a)) :
    first' >>= next' = renamed ρ rename' (first >>= next) := by
  subst same
  cases first with
  | ok a => exact later a
  | error e => rfl

theorem delimited_map {isCloser : Nat → Bool} {isCloser' : Char → Bool}
    (same : ∀ p, isCloser' (ρ p) = isCloser p) (start : Nat) (ps : List Nat) :
    delimited isCloser' start (ps.map ρ) =
      { inside := (delimited isCloser start ps).inside.map ρ
        stop := (delimited isCloser start ps).stop
        next := (delimited isCloser start ps).next
        rest := (delimited isCloser start ps).rest.map ρ } := by
  have closers : (!isCloser' ·) ∘ ρ = (!isCloser ·) := funext fun p => by simp [same]
  unfold delimited
  rw [List.takeWhile_map, List.dropWhile_map, closers]
  cases ps.dropWhile (!isCloser ·) <;> simp

theorem number_map (renames : Renames isOperator isOperator' ρ) (text : List Nat) (offset : Nat) :
    Cairn.Reading.number (text.map ρ) offset =
      renamed ρ (Token.toValue ρ) (number text offset) := by
  rw [Cairn.Reading.number, number, renames.numeralOfChars?_map]
  cases Number.numeralOfChars? (text.map glyph) <;> rfl

/-- Two case distinctions that agree on which case holds, and in each case. -/
theorem renamed_ite {α β : Type} {rename : α → β} {holds holds' : Prop} [Decidable holds]
    [Decidable holds'] {a b : Except ReadError α} {a' b' : Except Cairn.ReadError β}
    (same : holds' ↔ holds) (first : a' = renamed ρ rename a) (second : b' = renamed ρ rename b) :
    (if holds' then a' else b') = renamed ρ rename (if holds then a else b) := by
  by_cases case : holds
  · rw [if_pos (same.mpr case), if_pos case, first]
  · rw [if_neg (mt same.mp case), if_neg case, second]

/-- The steps of the reader on points are those of the reader on characters. -/
theorem stretch_map (renames : Renames isOperator isOperator' ρ) (fuel pos : Nat) (ps : List Nat) :
    Cairn.Reading.stretch isOperator' fuel pos (ps.map ρ) =
      renamed ρ (Stretch.rename ρ) (stretch isOperator fuel pos ps) := by
  induction fuel generalizing pos ps with
  | zero => rfl
  | succ fuel inductionHypothesis =>
    cases ps with
    | nil => rfl
    | cons p ps =>
      have is {c : Char} (plain : IsPlain c) (p : Nat) : ρ p = c ↔ glyph p = c :=
        renames.eq_iff plain p
      have closes {c : Char} (plain : IsPlain c) (p : Nat) :
          decide (ρ p = c) = decide (glyph p = c) := decide_eq_decide.mpr (is plain p)
      -- What a token is put in front of is read by the induction hypothesis.
      have goesOn (token : Token) (pos : Nat) (ps : List Nat) :
          (Cairn.Reading.stretch isOperator' fuel pos (ps.map ρ) >>= fun s =>
              pure (s.prepend (token.toValue ρ))) =
            renamed ρ (Stretch.rename ρ) (stretch isOperator fuel pos ps >>= fun s =>
              pure (s.prepend token)) :=
        renamed_bind (inductionHypothesis pos ps) fun s => rfl
      rw [List.map_cons, Cairn.Reading.stretch, stretch]
      refine renamed_ite (by rw [renames.isNumeric_eq]) ?run <|
        renamed_ite (is (by decide) p) ?parenthesis <| renamed_ite (is (by decide) p) ?string <|
        renamed_ite (is (by decide) p) ?function <| renamed_ite (is (by decide) p) ?block <|
        renamed_ite (is (by decide) p) rfl <| renamed_ite ?blanks (inductionHypothesis _ _) <|
        renamed_ite (is (by decide) p) ?comment <|
        renamed_ite (is (by decide) p) (goesOn (.boolean true) _ _) <|
        renamed_ite (is (by decide) p) (goesOn (.boolean false) _ _) <|
        renamed_ite (by rw [renames.operator]) (goesOn (.operator p) _ _) rfl
      case run =>
        have run : isNumeric ∘ ρ = (isNumeric <| glyph ·) := funext renames.isNumeric_eq
        simp only [List.takeWhile_map, List.dropWhile_map, run, List.length_map]
        rw [← List.map_cons]
        exact renamed_bind (number_map renames _ _) fun token => goesOn token _ _
      case parenthesis =>
        rw [delimited_map (closes (by decide))]
        exact renamed_bind (number_map renames _ _) fun token => goesOn token _ _
      case string =>
        rw [delimited_map (closes (by decide))]
        exact goesOn (.string _) _ _
      case function =>
        rw [delimited_map (closes (by decide))]
        exact goesOn (.function _) _ _
      case block =>
        refine renamed_bind (inductionHypothesis _ _) fun inner => ?_
        simp only [Stretch.rename, List.isEmpty_map, ← List.map_tail]
        exact goesOn (.block inner.tokens) _ _
      case blanks =>
        exact or_congr (is (by decide) p) (or_congr (is (by decide) p) (is (by decide) p))
      case comment =>
        have ends (p : Nat) : decide (ρ p = '\n' ∨ ρ p = '\\') =
            decide (glyph p = '\n' ∨ glyph p = '\\') :=
          decide_eq_decide.mpr (or_congr (is (by decide) p) (is (by decide) p))
        rw [delimited_map ends]
        exact inductionHypothesis _ _

/-- Reading renamed points is renaming what the points read as. -/
theorem ofPoints_map (renames : Renames isOperator isOperator' ρ) (ps : List Nat) :
    Cairn.Reading.ofChars isOperator' (ps.map ρ) =
      renamed ρ (Reading.rename ρ) (ofPoints isOperator ps) := by
  rw [Cairn.Reading.ofChars, ofPoints, List.length_map]
  exact renamed_bind (stretch_map renames _ _ _) fun s => rfl

end Points

end Cairn
