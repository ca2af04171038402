import Cairn.Number.Numeral
import Cairn.Number.Text
import Cairn.Proofs.Doubles
import Cairn.Proofs.Rounding
import Mathlib

set_option autoImplicit false

/-!
# Numerals

The text of a number is a numeral, and the numeral reads back to the number. The texts of finite
numbers, with their layouts with and without a point or an exponent, are spellings of decimals, and
reading a spelling needs to be understood only once.
-/

namespace Cairn

theorem takeWhile_of_stop {p : Char → Bool} {front rest : List Char}
    (inside : ∀ c ∈ front, p c = true) (stops : ∀ c ∈ rest.head?, p c = false) :
    (front ++ rest).takeWhile p = front := by
  rw [List.takeWhile_append_of_pos inside]
  cases rest with
  | nil => simp
  | cons c rest => simp [stops c (by simp)]

theorem dropWhile_of_stop {p : Char → Bool} {front rest : List Char}
    (inside : ∀ c ∈ front, p c = true) (stops : ∀ c ∈ rest.head?, p c = false) :
    (front ++ rest).dropWhile p = rest := by
  rw [List.dropWhile_append_of_pos inside]
  cases rest with
  | nil => simp
  | cons c rest => simp [stops c (by simp)]

namespace Number

theorem natOfDigits_append (front back : List Char) :
    natOfDigits (front ++ back) = 10 ^ back.length * natOfDigits front + natOfDigits back := by
  have joined : natOfDigits (front ++ back) = Nat.ofDigitChars 10 back (natOfDigits front) :=
    Nat.ofDigitChars_append 0
  rw [joined, Nat.ofDigitChars_eq_ofDigitChars_zero]
  rfl

@[simp] theorem natOfDigits_toDigits (n : Nat) : natOfDigits (Nat.toDigits 10 n) = n :=
  Nat.ofDigitChars_ten_toDigits

@[simp] theorem natOfDigits_zeros (n : Nat) : natOfDigits (List.replicate n '0') = 0 :=
  Nat.ofDigitChars_replicate_zero

theorem toLower_of_isDigit {c : Char} (digit : c.isDigit) : c.toLower = c := by
  unfold Char.isDigit at digit
  unfold Char.toLower
  rw [dif_neg]
  intro upper
  simp only [Bool.and_eq_true, decide_eq_true_eq, ge_iff_le, UInt32.le_iff_toNat_le] at digit upper
  have low := digit.2
  have high := upper.1
  simp at low high
  omega

/-- A decimal as it is written: digits, a point and more digits if there are any, and an exponent
if there is one. -/
structure Spelling where
  whole : List Char
  fraction : List Char
  power : Option Int
  whole_ne_nil : whole ≠ []
  whole_digits : ∀ c ∈ whole, c.isDigit
  fraction_digits : ∀ c ∈ fraction, c.isDigit

namespace Spelling

def fractionText (s : Spelling) : List Char :=
  if s.fraction = [] then [] else '.' :: s.fraction

def powerText (s : Spelling) : List Char :=
  match s.power with
  | none => []
  | some k => 'e' :: (if k < 0 then '-' else '+') :: Nat.toDigits 10 k.natAbs

def text (s : Spelling) : List Char := s.whole ++ (s.fractionText ++ s.powerText)

def decimal (s : Spelling) : Decimal :=
  ⟨natOfDigits (s.whole ++ s.fraction), s.power.getD 0 - s.fraction.length⟩

theorem mem_text {s : Spelling} {c : Char} (member : c ∈ s.text) :
    c.isDigit ∨ c = '.' ∨ c = 'e' ∨ c = '-' ∨ c = '+' := by
  simp only [text, List.mem_append] at member
  rcases member with inWhole | inFraction | inPower
  · exact .inl (s.whole_digits c inWhole)
  · unfold fractionText at inFraction
    split at inFraction
    next => cases inFraction
    next =>
      rcases List.mem_cons.mp inFraction with point | inDigits
      · exact .inr (.inl point)
      · exact .inl (s.fraction_digits c inDigits)
  · unfold powerText at inPower
    split at inPower
    next => cases inPower
    next k _ =>
      rcases List.mem_cons.mp inPower with mark | inSigned
      · exact .inr (.inr (.inl mark))
      · rcases List.mem_cons.mp inSigned with sign | inDigits
        · split at sign
          next => exact .inr (.inr (.inr (.inl sign)))
          next => exact .inr (.inr (.inr (.inr sign)))
        · exact .inl (Nat.isDigit_of_mem_toDigits (by decide) (by decide) inDigits)

theorem exponentPart?_powerText (s : Spelling) :
    exponentPart? s.powerText = some (s.power.getD 0) := by
  unfold powerText
  cases s.power with
  | none => rfl
  | some k =>
    have digits : ∀ c ∈ Nat.toDigits 10 k.natAbs, c.isDigit := fun c member =>
      Nat.isDigit_of_mem_toDigits (by decide) (by decide) member
    have allDigits : (Nat.toDigits 10 k.natAbs).all Char.isDigit = true :=
      List.all_eq_true.mpr digits
    have nonempty : Nat.toDigits 10 k.natAbs ≠ [] := Nat.toDigits_ne_nil
    by_cases negative : k < 0
    · have sign : -(k.natAbs : Int) = k := by omega
      simp only [exponentPart?, splitSign, negative, nonempty, allDigits, natOfDigits_toDigits,
        ne_eq, not_false_eq_true, and_self, true_or, if_true, Option.getD_some, sign]
    · have sign : (k.natAbs : Int) = k := by omega
      simp only [exponentPart?, splitSign, negative, nonempty, allDigits, natOfDigits_toDigits,
        ne_eq, not_false_eq_true, and_self, true_or, if_true, if_false, Option.getD_some, sign]
      rfl

theorem powerText_head (s : Spelling) : ∀ c ∈ s.powerText.head?, c = 'e' := by
  unfold powerText
  split <;> simp

theorem fractionPart_text (s : Spelling) :
    fractionPart (s.fractionText ++ s.powerText) = (s.fraction, s.powerText) := by
  have stops : ∀ c ∈ s.powerText.head?, c.isDigit = false := by
    intro c member
    rw [powerText_head s c member]
    rfl
  unfold fractionText
  split
  next noFraction =>
    rw [List.nil_append, noFraction]
    unfold powerText
    split <;> rfl
  next =>
    simp only [List.cons_append, fractionPart]
    rw [takeWhile_of_stop s.fraction_digits stops, dropWhile_of_stop s.fraction_digits stops]

theorem decimal?_text (s : Spelling) : decimal? s.text = some s.decimal := by
  have stops : ∀ c ∈ (s.fractionText ++ s.powerText).head?, c.isDigit = false := by
    intro c member
    unfold fractionText at member
    split at member
    next =>
      rw [powerText_head s c (by simpa using member)]
      rfl
    next =>
      cases member
      rfl
  have someDigit : s.whole ≠ [] ∨ s.fraction ≠ [] := .inl s.whole_ne_nil
  simp only [decimal?, text, takeWhile_of_stop s.whole_digits stops,
    dropWhile_of_stop s.whole_digits stops, fractionPart_text, exponentPart?_powerText, guard,
    if_pos someDigit]
  rfl

theorem text_eq_cons (s : Spelling) : ∃ c rest, s.text = c :: rest ∧ c.isDigit := by
  obtain ⟨c, rest, shape⟩ := List.exists_cons_of_ne_nil s.whole_ne_nil
  refine ⟨c, rest ++ (s.fractionText ++ s.powerText), ?_, s.whole_digits c (by simp [shape])⟩
  rw [text, shape, List.cons_append]

theorem text_filter (s : Spelling) : s.text.filter (· ≠ '_') = s.text := by
  apply List.filter_eq_self.mpr
  intro c member
  rcases mem_text member with digit | rfl | rfl | rfl | rfl
  · simp only [decide_eq_true_eq]
    rintro rfl
    cases digit
  all_goals rfl

theorem splitSign_text (s : Spelling) (negative : Bool) :
    splitSign ((if negative then ['-'] else []) ++ s.text) = (negative, s.text) := by
  cases negative with
  | true => rfl
  | false =>
    obtain ⟨c, rest, shape, digit⟩ := s.text_eq_cons
    simp only [Bool.false_eq_true, if_false, List.nil_append, shape]
    unfold splitSign
    split
    next equality =>
      cases equality
      cases digit
    next equality =>
      cases equality
      cases digit
    next => rfl

/-- A spelling with an optional minus sign is a numeral for its decimal. -/
theorem numeralOfChars?_text (s : Spelling) (negative : Bool) :
    numeralOfChars? ((if negative then ['-'] else []) ++ s.text) =
      some (s.decimal.toFloat negative) := by
  obtain ⟨c, rest, shape, digit⟩ := s.text_eq_cons
  have kept : ((if negative then ['-'] else []) ++ s.text).filter (· ≠ '_') =
      (if negative then ['-'] else []) ++ s.text := by
    rw [List.filter_append, text_filter]
    cases negative <;> rfl
  have notWord : ∀ (first : Char) (word : List Char), first.isDigit = false →
      String.ofList (s.text.map Char.toLower) ≠ String.ofList (first :: word) := by
    intro first word notDigit equality
    have lists := congrArg String.toList equality
    simp only [shape, List.map_cons, String.toList_ofList, List.cons.injEq] at lists
    rw [← lists.1, toLower_of_isDigit digit, digit] at notDigit
    cases notDigit
  simp only [numeralOfChars?, kept, splitSign_text]
  rw [if_neg, if_neg, decimal?_text]
  · rfl
  · exact notWord 'n' ['a', 'n'] rfl
  · rintro (isInf | isInfinity)
    · exact notWord 'i' ['n', 'f'] rfl isInf
    · exact notWord 'i' ['n', 'f', 'i', 'n', 'i', 't', 'y'] rfl isInfinity

end Spelling

theorem isDigit_zeros {n : Nat} {c : Char} (member : c ∈ List.replicate n '0') : c.isDigit := by
  rw [List.eq_of_mem_replicate member]
  rfl

theorem scientific_eq_text {c : Char} {rest : List Char}
    (digits : ∀ x ∈ c :: rest, x.isDigit) (power : Int) :
    ∃ s : Spelling, (scientific (c :: rest) power).toList = s.text ∧
      s.decimal = ⟨natOfDigits (c :: rest), power - rest.length⟩ := by
  have first : ∀ x ∈ [c], x.isDigit := fun x member => digits x (by simp_all)
  have others : ∀ x ∈ rest, x.isDigit := fun x member => digits x (by simp [member])
  refine ⟨⟨[c], rest, some power, by simp, first, others⟩, ?_, rfl⟩
  have sign : ((if power < 0 then "-" else "+") : String).toList =
      [if power < 0 then '-' else '+'] := by
    split <;> rfl
  cases rest with
  | nil =>
    simp [scientific, Spelling.text, Spelling.fractionText, Spelling.powerText, sign]
  | cons second others =>
    simp [scientific, Spelling.text, Spelling.fractionText, Spelling.powerText, sign]

theorem small_eq_text {ds : List Char} (digits : ∀ x ∈ ds, x.isDigit) (nonempty : ds ≠ [])
    (n : Nat) :
    ∃ s : Spelling, ("0." ++ zeros n ++ String.ofList ds).toList = s.text ∧
      s.decimal = ⟨natOfDigits ds, -((n + ds.length : Nat) : Int)⟩ := by
  have allDigits : ∀ x ∈ List.replicate n '0' ++ ds, x.isDigit := by
    intro x member
    rcases List.mem_append.mp member with zero | digit
    · exact isDigit_zeros zero
    · exact digits x digit
  refine ⟨⟨['0'], List.replicate n '0' ++ ds, none, by simp, by simp, allDigits⟩, ?_, ?_⟩
  · simp [zeros, Spelling.text, Spelling.fractionText, Spelling.powerText, nonempty]
  · have zero : natOfDigits ['0'] = 0 := rfl
    simp only [Spelling.decimal, natOfDigits_append, zero, natOfDigits_zeros, List.length_append,
      List.length_replicate, Option.getD_none, Nat.mul_zero, Nat.zero_add, Int.zero_sub]

theorem whole_eq_text {ds : List Char} (digits : ∀ x ∈ ds, x.isDigit) (nonempty : ds ≠ [])
    (n : Nat) :
    ∃ s : Spelling, (String.ofList ds ++ zeros n).toList = s.text ∧
      s.decimal = ⟨10 ^ n * natOfDigits ds, 0⟩ := by
  have allDigits : ∀ x ∈ ds ++ List.replicate n '0', x.isDigit := by
    intro x member
    rcases List.mem_append.mp member with digit | zero
    · exact digits x digit
    · exact isDigit_zeros zero
  refine ⟨⟨ds ++ List.replicate n '0', [], none, by simp [nonempty], allDigits, by simp⟩, ?_, ?_⟩
  · simp [zeros, Spelling.text, Spelling.fractionText, Spelling.powerText]
  · simp [Spelling.decimal, natOfDigits_append]

theorem pointed_eq_text (front back : List Char) (digits : ∀ x ∈ front ++ back, x.isDigit)
    (frontNonempty : front ≠ []) (backNonempty : back ≠ []) :
    ∃ s : Spelling, (String.ofList front ++ "." ++ String.ofList back).toList = s.text ∧
      s.decimal = ⟨natOfDigits (front ++ back), -(back.length : Int)⟩ := by
  refine ⟨⟨front, back, none, frontNonempty, fun x member => digits x (by simp [member]),
    fun x member => digits x (by simp [member])⟩, ?_, ?_⟩
  · simp [Spelling.text, Spelling.fractionText, Spelling.powerText, backNonempty]
  · simp [Spelling.decimal]

/-- The layout of a decimal spells a decimal of the same value. -/
theorem layout_eq_text (d : Decimal) :
    ∃ s : Spelling, (layout d).toList = s.text ∧ s.decimal.value = d.value := by
  have digits : ∀ c ∈ Nat.toDigits 10 d.digits, c.isDigit := fun c member =>
    Nat.isDigit_of_mem_toDigits (by decide) (by decide) member
  have nonempty : Nat.toDigits 10 d.digits ≠ [] := Nat.toDigits_ne_nil
  have read : natOfDigits (Nat.toDigits 10 d.digits) = d.digits := natOfDigits_toDigits _
  unfold layout
  dsimp only
  generalize Nat.toDigits 10 d.digits = ds at digits nonempty read
  split
  next =>
    obtain ⟨c, rest, rfl⟩ := List.exists_cons_of_ne_nil nonempty
    obtain ⟨s, text, decimal⟩ := scientific_eq_text digits ((c :: rest).length + d.exponent - 1)
    refine ⟨s, text, ?_⟩
    have place : ((c :: rest).length : Int) + d.exponent - 1 - rest.length = d.exponent := by
      rw [List.length_cons]
      omega
    rw [decimal, read, place]
  next =>
    split
    next notPositive =>
      obtain ⟨s, text, decimal⟩ := small_eq_text digits nonempty (-(ds.length + d.exponent)).toNat
      refine ⟨s, text, ?_⟩
      have place : -(((-(ds.length + d.exponent)).toNat + ds.length : Nat) : Int) = d.exponent := by
        omega
      rw [decimal, read, place]
    next positive =>
      split
      next whole =>
        obtain ⟨s, text, decimal⟩ := whole_eq_text digits nonempty d.exponent.toNat
        refine ⟨s, text, ?_⟩
        have power : (10 : ℚ) ^ d.exponent = 10 ^ d.exponent.toNat := by
          rw [← zpow_natCast, Int.toNat_of_nonneg whole]
        rw [decimal, read]
        simp only [Decimal.value, power]
        push_cast
        ring
      next fractional =>
        let point := (ds.length + d.exponent).toNat
        have inside : 0 < point ∧ point < ds.length := by
          simp only [point]
          omega
        have joined : ds.take point ++ ds.drop point = ds := List.take_append_drop point ds
        have front : ds.take point ≠ [] := List.ne_nil_of_length_pos (by simp; omega)
        have back : ds.drop point ≠ [] := List.ne_nil_of_length_pos (by simp; omega)
        obtain ⟨s, text, decimal⟩ := pointed_eq_text (ds.take point) (ds.drop point)
          (by rwa [joined]) front back
        refine ⟨s, text, ?_⟩
        have place : -((ds.drop point).length : Int) = d.exponent := by
          rw [List.length_drop]
          simp only [point]
          omega
        rw [decimal, joined, read, place]

theorem mantissaOf_eq_zero_iff (bits : Nat) : mantissaOf bits = 0 ↔ bits = 0 := by
  unfold mantissaOf leadingBit
  split <;> omega

/-- How numbers are written: NaN and the infinities by name, every other number by an optional
minus sign and a spelling of it. -/
theorem exactText_shape (x : Float) :
    (x = nan ∧ exactText x = "NaN") ∨
    (∃ negative, x = infinity negative ∧
      exactText x = if negative then "-Infinity" else "Infinity") ∨
    ∃ (s : Spelling) (negative : Bool),
      (exactText x).toList = (if negative then ['-'] else []) ++ s.text ∧
        s.decimal.toFloat negative = x := by
  have whole := ofMagnitude_magnitude x
  let zeroSpelling : Spelling := ⟨['0'], [], none, by simp, by simp, by simp⟩
  unfold exactText
  split
  next negativeZero =>
    simp only [isNegativeZero, Bool.and_eq_true, beq_iff_eq] at negativeZero
    rw [negativeZero.1, negativeZero.2] at whole
    exact .inr (.inr ⟨zeroSpelling, true, rfl, whole⟩)
  next notNegativeZero =>
    unfold text
    split
    next isNan => exact .inl ⟨parts_eq_nan isNan, rfl⟩
    next negative isInfinite =>
      exact .inr (.inl ⟨negative, parts_eq_infinite isInfinite, rfl⟩)
    next negative mantissa _ isFinite =>
      obtain ⟨below, rfl, rfl⟩ := parts_eq_finite isFinite
      split
      next zero =>
        rw [mantissaOf_eq_zero_iff] at zero
        have sign : isNegative x = false := by
          simpa [isNegativeZero, zero] using notNegativeZero
        rw [sign, zero] at whole
        exact .inr (.inr ⟨zeroSpelling, false, rfl, whole⟩)
      next nonzero =>
        rw [mantissaOf_eq_zero_iff] at nonzero
        obtain ⟨s, spelled, value⟩ := layout_eq_text (shortest (magnitude x))
        refine .inr (.inr ⟨s, isNegative x, ?_, ?_⟩)
        · rw [String.toList_append, spelled]
          split <;> rfl
        · rw [Decimal.toFloat, Decimal.nearest_eq_of_value_eq value,
            nearest_shortest (by omega) below, whole]

/-- The exact text of a number is a numeral for that number, the zeros, the infinities and NaN
included. -/
theorem numeralOfChars?_exactText (x : Float) : numeralOfChars? (exactText x).toList = some x := by
  rcases exactText_shape x with ⟨rfl, text⟩ | ⟨negative, rfl, text⟩ | ⟨s, negative, text, value⟩
  · rw [text]
    rfl
  · rw [text]
    cases negative <;> rfl
  · rw [text, s.numeralOfChars?_text, value]

/-- So a number can stand in parentheses. -/
theorem closer_not_mem_exactText (x : Float) : ')' ∉ (exactText x).toList := by
  rcases exactText_shape x with ⟨rfl, text⟩ | ⟨negative, rfl, text⟩ | ⟨s, negative, text, -⟩
  · rw [text]
    decide
  · rw [text]
    cases negative <;> decide
  · rw [text, List.mem_append, not_or]
    refine ⟨by cases negative <;> simp, fun member => ?_⟩
    rcases Spelling.mem_text member with digit | equality | equality | equality | equality
    · cases digit
    all_goals cases equality

end Number

end Cairn
