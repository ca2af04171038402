import Cairn.Proofs.ClosedPrefixes
import Cairn.Proofs.Numerals
import Mathlib

set_option autoImplicit false

/-!
# The grammar of numerals

Which texts are numerals, said without reading them: a sign, and then a word in any letter case or a
mantissa with an exponent. The reading of numerals accepts these texts and no others, whatever
separators they hold.
-/

namespace Cairn

namespace Number

/-- A text of ASCII digits. -/
def Digits (cs : List Char) : Prop := ∀ c ∈ cs, c.isDigit = true

/-- A sign, which may be left out, and whether it is a minus. -/
inductive IsSign : Bool → List Char → Prop
  | absent : IsSign false []
  | plus : IsSign false ['+']
  | minus : IsSign true ['-']

/-- Digits with a point and more digits behind them, both of which may be left out, or a point with
at least one digit. -/
inductive IsMantissa : List Char → Prop
  | whole {digits : List Char} : digits ≠ [] → Digits digits → IsMantissa digits
  | point {digits fraction : List Char} : digits ≠ [] → Digits digits → Digits fraction →
      IsMantissa (digits ++ '.' :: fraction)
  | leadingPoint {fraction : List Char} : fraction ≠ [] → Digits fraction →
      IsMantissa ('.' :: fraction)

/-- A letter, a sign and at least one digit, or nothing. -/
inductive IsExponent : List Char → Prop
  | absent : IsExponent []
  | present {letter : Char} {negative : Bool} {sign digits : List Char} :
      letter = 'e' ∨ letter = 'E' → IsSign negative sign → digits ≠ [] → Digits digits →
      IsExponent (letter :: (sign ++ digits))

/-- A word in any letter case; only ASCII letters have two. -/
def Spells (word : String) (cs : List Char) : Prop := cs.map Char.toLower = word.toList

inductive IsUnsigned : List Char → Prop
  | word {word : String} {cs : List Char} : word ∈ ["inf", "infinity", "nan"] →
      Spells word cs → IsUnsigned cs
  | decimal {mantissa exponent : List Char} : IsMantissa mantissa → IsExponent exponent →
      IsUnsigned (mantissa ++ exponent)

/-- A numeral without separators. -/
inductive IsNumeral : List Char → Prop
  | intro {negative : Bool} {sign unsigned : List Char} : IsSign negative sign →
      IsUnsigned unsigned → IsNumeral (sign ++ unsigned)

variable {cs : List Char}

/-! Signs. -/

/-- A text whose first character is no sign. -/
def Unsigned (cs : List Char) : Prop := ∀ c ∈ cs.head?, c ≠ '+' ∧ c ≠ '-'

theorem splitSign_append {negative : Bool} {sign : List Char} (isSign : IsSign negative sign)
    (unsigned : Unsigned cs) : splitSign (sign ++ cs) = (negative, cs) := by
  cases isSign with
  | plus => rfl
  | minus => rfl
  | absent =>
    rw [List.nil_append]
    unfold splitSign
    split
    · exact absurd rfl (unsigned '-' rfl).2
    · exact absurd rfl (unsigned '+' rfl).1
    · rfl

theorem exists_sign (cs : List Char) :
    ∃ sign, IsSign (splitSign cs).1 sign ∧ cs = sign ++ (splitSign cs).2 := by
  unfold splitSign
  split
  · exact ⟨_, .minus, rfl⟩
  · exact ⟨_, .plus, rfl⟩
  · exact ⟨_, .absent, rfl⟩

theorem Digits.unsigned (digits : Digits cs) : Unsigned cs := by
  intro c head
  have digit := digits c (List.mem_of_mem_head? head)
  constructor <;> (rintro rfl; cases digit)

theorem IsMantissa.unsigned {exponent : List Char} (isMantissa : IsMantissa cs) :
    Unsigned (cs ++ exponent) := by
  cases isMantissa with
  | @whole digits nonempty isDigits =>
    rw [Unsigned, List.head?_append_of_ne_nil _ nonempty]
    exact isDigits.unsigned
  | point nonempty isDigits =>
    rw [Unsigned, List.append_assoc, List.head?_append_of_ne_nil _ nonempty]
    exact isDigits.unsigned
  | leadingPoint =>
    rintro c ⟨⟩
    decide

theorem Spells.unsigned {word : String} (spells : Spells word cs)
    (unsigned : Unsigned word.toList) : Unsigned cs := by
  intro c head
  have lower : c.toLower ∈ word.toList.head? := by
    rw [← spells, List.head?_map, Option.mem_def.mp head]
    rfl
  have other := unsigned c.toLower lower
  constructor <;> (rintro rfl; revert other; decide)

theorem IsUnsigned.unsigned (isUnsigned : IsUnsigned cs) : Unsigned cs := by
  cases isUnsigned with
  | word known spells =>
    apply spells.unsigned
    simp only [List.mem_cons, List.not_mem_nil, or_false] at known
    rcases known with rfl | rfl | rfl <;> (rintro c ⟨⟩; decide)
  | decimal isMantissa => exact isMantissa.unsigned

/-! Decimals. -/

theorem isSome_exponentPart?_iff : (exponentPart? cs).isSome = true ↔ IsExponent cs := by
  constructor
  · intro present
    cases cs with
    | nil => exact .absent
    | cons letter rest =>
      obtain ⟨sign, isSign, text⟩ := exists_sign rest
      simp only [exponentPart?] at present
      by_cases mark : letter = 'e' ∨ letter = 'E'
      · rw [if_pos mark] at present
        by_cases digits : (splitSign rest).2 ≠ [] ∧ (splitSign rest).2.all Char.isDigit = true
        · rw [text]
          exact .present mark isSign digits.1 (List.all_eq_true.mp digits.2)
        · rw [if_neg digits] at present
          cases present
      · rw [if_neg mark] at present
        cases present
  · intro isExponent
    cases isExponent with
    | absent => rfl
    | present mark isSign nonempty digits =>
      have allDigits := List.all_eq_true.mpr digits
      simp only [exponentPart?, if_pos mark, splitSign_append isSign digits.unsigned]
      rw [if_pos ⟨nonempty, allDigits⟩]
      rfl

theorem IsExponent.stops (isExponent : IsExponent cs) : ∀ c ∈ cs.head?, c.isDigit = false := by
  cases isExponent with
  | absent => rintro _ ⟨⟩
  | present mark =>
    rintro c ⟨⟩
    rcases mark with rfl | rfl <;> rfl

theorem fractionPart_point {fraction exponent : List Char} (isDigits : Digits fraction)
    (isExponent : IsExponent exponent) :
    fractionPart ('.' :: (fraction ++ exponent)) = (fraction, exponent) := by
  rw [fractionPart, takeWhile_of_stop isDigits isExponent.stops,
    dropWhile_of_stop isDigits isExponent.stops]

theorem fractionPart_exponent {exponent : List Char} (isExponent : IsExponent exponent) :
    fractionPart exponent = ([], exponent) := by
  cases isExponent with
  | absent => rfl
  | present mark => rcases mark with rfl | rfl <;> rfl

theorem fractionPart_cases (cs : List Char) :
    (∃ fraction rest, cs = '.' :: (fraction ++ rest) ∧ Digits fraction ∧
      fractionPart cs = (fraction, rest)) ∨ fractionPart cs = ([], cs) := by
  unfold fractionPart
  split
  · exact .inl ⟨_, _, by rw [List.takeWhile_append_dropWhile],
      fun _ => List.mem_takeWhile_imp, rfl⟩
  · exact .inr rfl

theorem isSome_decimal? (cs : List Char) :
    (decimal? cs).isSome = true ↔
      (cs.takeWhile Char.isDigit ≠ [] ∨ (fractionPart (cs.dropWhile Char.isDigit)).1 ≠ []) ∧
        IsExponent (fractionPart (cs.dropWhile Char.isDigit)).2 := by
  rw [← isSome_exponentPart?_iff]
  simp only [decimal?]
  by_cases someDigit : cs.takeWhile Char.isDigit ≠ [] ∨
      (fractionPart (cs.dropWhile Char.isDigit)).1 ≠ []
  · simp only [someDigit, guard, if_true, true_and]
    cases exponentPart? (fractionPart (cs.dropWhile Char.isDigit)).2 <;> rfl
  · simp only [someDigit, guard, if_false, false_and]
    simp

/-- The reading of decimals takes the longest digits it finds, and these are all that the grammar
can mean: an exponent starts with no digit and no point. -/
theorem isSome_decimal?_iff :
    (decimal? cs).isSome = true ↔
      ∃ mantissa exponent, cs = mantissa ++ exponent ∧ IsMantissa mantissa ∧
        IsExponent exponent := by
  rw [isSome_decimal?]
  constructor
  · rintro ⟨someDigit, isExponent⟩
    have parts := List.takeWhile_append_dropWhile (p := Char.isDigit) (l := cs)
    have isDigits : Digits (cs.takeWhile Char.isDigit) := fun _ => List.mem_takeWhile_imp
    rcases fractionPart_cases (cs.dropWhile Char.isDigit) with
      ⟨fraction, rest, after, isFraction, taken⟩ | taken
    · rw [taken] at someDigit isExponent
      by_cases nonempty : cs.takeWhile Char.isDigit = []
      · refine ⟨'.' :: fraction, rest, ?_, .leadingPoint ?_ isFraction, isExponent⟩
        · rw [← parts, nonempty, after]
          rfl
        · exact someDigit.resolve_left (fun none => none nonempty)
      · refine ⟨cs.takeWhile Char.isDigit ++ '.' :: fraction, rest, ?_,
          .point nonempty isDigits isFraction, isExponent⟩
        rw [List.append_assoc, List.cons_append, ← after, parts]
    · rw [taken] at someDigit isExponent
      exact ⟨_, _, parts.symm, .whole (someDigit.resolve_right (fun none => none rfl)) isDigits,
        isExponent⟩
  · rintro ⟨mantissa, exponent, rfl, isMantissa, isExponent⟩
    cases isMantissa with
    | whole nonempty isDigits =>
      rw [takeWhile_of_stop isDigits isExponent.stops, dropWhile_of_stop isDigits isExponent.stops,
        fractionPart_exponent isExponent]
      exact ⟨.inl nonempty, isExponent⟩
    | @point digits fraction nonempty isDigits isFraction =>
      have stops : ∀ c ∈ ('.' :: (fraction ++ exponent)).head?, c.isDigit = false := by
        rintro c ⟨⟩
        rfl
      rw [List.append_assoc, List.cons_append, takeWhile_of_stop isDigits stops,
        dropWhile_of_stop isDigits stops, fractionPart_point isFraction isExponent]
      exact ⟨.inl nonempty, isExponent⟩
    | @leadingPoint fraction nonempty isFraction =>
      have point : ('.' :: fraction ++ exponent).dropWhile Char.isDigit =
          '.' :: (fraction ++ exponent) := rfl
      rw [point, fractionPart_point isFraction isExponent]
      exact ⟨.inr nonempty, isExponent⟩

/-! Numerals. -/

/-- The number of a numeral without its sign and its separators. -/
def unsignedNumeral? (negative : Bool) (unsigned : List Char) : Option Float :=
  let word := String.ofList (unsigned.map Char.toLower)
  if word = "inf" ∨ word = "infinity" then some (infinity negative)
  else if word = "nan" then some nan
  else (decimal? unsigned).map (Decimal.toFloat negative)

theorem numeralOfChars?_eq (cs : List Char) :
    numeralOfChars? cs =
      unsignedNumeral? (splitSign (cs.filter (· ≠ '_'))).1 (splitSign (cs.filter (· ≠ '_'))).2 :=
  rfl

theorem spells_iff {word : String} :
    String.ofList (cs.map Char.toLower) = word ↔ Spells word cs := by
  rw [Spells, ← String.toList_inj, String.toList_ofList]

theorem unsignedNumeral?_cases (negative : Bool) (cs : List Char) :
    ((Spells "inf" cs ∨ Spells "infinity" cs) ∧
      unsignedNumeral? negative cs = some (infinity negative)) ∨
    (Spells "nan" cs ∧ unsignedNumeral? negative cs = some nan) ∨
    ((∀ word ∈ ["inf", "infinity", "nan"], ¬ Spells word cs) ∧
      unsignedNumeral? negative cs = (decimal? cs).map (Decimal.toFloat negative)) := by
  unfold unsignedNumeral?
  dsimp only
  split
  next isInfinite => exact .inl ⟨isInfinite.imp spells_iff.mp spells_iff.mp, rfl⟩
  next isFinite =>
    split
    next isNan => exact .inr (.inl ⟨spells_iff.mp isNan, rfl⟩)
    next isNumber =>
      refine .inr (.inr ⟨fun word known spells => ?_, rfl⟩)
      rw [← spells_iff] at spells
      simp only [List.mem_cons, List.not_mem_nil, or_false] at known
      rcases known with rfl | rfl | rfl
      · exact isFinite (.inl spells)
      · exact isFinite (.inr spells)
      · exact isNumber spells

theorem isSome_unsignedNumeral?_iff (negative : Bool) :
    (unsignedNumeral? negative cs).isSome = true ↔ IsUnsigned cs := by
  rcases unsignedNumeral?_cases negative cs with
    ⟨isInfinite, read⟩ | ⟨isNan, read⟩ | ⟨noWord, read⟩ <;> rw [read]
  · refine ⟨fun _ => ?_, fun _ => rfl⟩
    rcases isInfinite with spells | spells <;> exact .word (by simp) spells
  · exact ⟨fun _ => .word (by simp) isNan, fun _ => rfl⟩
  · rw [Option.isSome_map, isSome_decimal?_iff]
    constructor
    · rintro ⟨mantissa, exponent, rfl, isMantissa, isExponent⟩
      exact .decimal isMantissa isExponent
    · intro isUnsigned
      cases isUnsigned with
      | decimal isMantissa isExponent => exact ⟨_, _, rfl, isMantissa, isExponent⟩
      | word known spells => exact absurd spells (noWord _ known)

/-- Exactly the grammar is read. -/
theorem isSome_numeralOfChars?_iff :
    (numeralOfChars? cs).isSome = true ↔ IsNumeral (cs.filter (· ≠ '_')) := by
  rw [numeralOfChars?_eq, isSome_unsignedNumeral?_iff]
  generalize cs.filter (· ≠ '_') = text
  constructor
  · intro isUnsigned
    obtain ⟨sign, isSign, parts⟩ := exists_sign text
    rw [parts]
    exact .intro isSign isUnsigned
  · rintro ⟨isSign, isUnsigned⟩
    rw [splitSign_append isSign isUnsigned.unsigned]
    exact isUnsigned

/-! Values. -/

theorem nearest_le (num den : Nat) : Number.nearest num den ≤ infinityBits := by
  unfold Number.nearest
  dsimp only
  split
  · exact Nat.zero_le _
  · exact Nat.min_le_right _ _

theorem Decimal.nearest_le (d : Decimal) : d.nearest ≤ infinityBits := by
  unfold Decimal.nearest
  dsimp only
  split_ifs
  · exact Nat.zero_le _
  · exact Nat.le_refl _
  · exact Nat.zero_le _
  · exact Number.nearest_le _ _

theorem unsignedNumeral?_not (negative : Bool) (cs : List Char) :
    unsignedNumeral? (!negative) cs = (unsignedNumeral? negative cs).map (- ·) := by
  have opposite : ∀ bits, bits ≤ infinityBits →
      ofMagnitude (!negative) bits = -ofMagnitude negative bits := fun bits bound =>
    (neg_ofMagnitude negative bound).symm
  simp only [unsignedNumeral?]
  split_ifs
  · rw [Option.map_some, infinity, infinity, opposite _ (Nat.le_refl _)]
  · rw [Option.map_some, neg_nan]
  · rw [Option.map_map]
    congr 1
    funext d
    exact opposite _ d.nearest_le

theorem isNaN_unsignedNumeral? {negative : Bool} {x : Float}
    (found : unsignedNumeral? negative cs = some x) : x.isNaN = true ↔ Spells "nan" cs := by
  rcases unsignedNumeral?_cases negative cs with
    ⟨isInfinite, read⟩ | ⟨isNan, read⟩ | ⟨noWord, read⟩ <;> rw [read] at found
  · cases found
    rw [infinity, isNaN_ofMagnitude negative (Nat.le_refl _)]
    have other : ¬ Spells "nan" cs := by
      intro isNan
      rcases isInfinite with spells | spells
      all_goals
        rw [Spells, isNan] at spells
        revert spells
        decide
    simp [other]
  · cases found
    exact ⟨fun _ => isNan, fun _ => isNaN_nan⟩
  · obtain ⟨d, -, rfl⟩ := Option.map_eq_some_iff.mp found
    rw [Decimal.toFloat, isNaN_ofMagnitude negative d.nearest_le]
    simp [noWord "nan" (by simp)]

/-! Letter case. -/

theorem toLower_of_isAlpha_eq_false {c : Char} (other : c.isAlpha = false) : c.toLower = c := by
  apply Char.toLower_eq_of_not_isUpper
  rw [Char.isAlpha, Bool.or_eq_false_iff] at other
  simp [other.1]

/-- What is no letter comes from no letter. -/
theorem toLower_eq_iff {c d : Char} (other : d.isAlpha = false) : c.toLower = d ↔ c = d := by
  constructor
  · intro same
    rw [← same, Char.isAlpha_toLower_eq_isAlpha] at other
    rwa [toLower_of_isAlpha_eq_false other] at same
  · rintro rfl
    exact toLower_of_isAlpha_eq_false other

theorem isDigit_of_isAlpha {c : Char} (letter : c.isAlpha = true) : c.isDigit = false := by
  simp only [Char.isAlpha, Char.isUpper, Char.isLower, Char.isDigit, UInt32.le_iff_toNat_le,
    Bool.or_eq_true, Bool.and_eq_true, decide_eq_true_eq, Bool.and_eq_false_iff,
    decide_eq_false_iff_not, ge_iff_le] at letter ⊢
  simp at letter ⊢
  omega

theorem isDigit_toLower (c : Char) : c.toLower.isDigit = c.isDigit := by
  by_cases letter : c.isAlpha = true
  · have lowered : c.toLower.isAlpha = true := by rw [Char.isAlpha_toLower_eq_isAlpha, letter]
    rw [isDigit_of_isAlpha letter, isDigit_of_isAlpha lowered]
  · rw [toLower_of_isAlpha_eq_false (by simpa using letter)]

theorem isExponentLetter_toLower (c : Char) :
    (c.toLower = 'e' ∨ c.toLower = 'E') ↔ (c = 'e' ∨ c = 'E') := by
  constructor
  · by_cases upper : c.isUpper = true
    · rintro (small | capital)
      · right
        rw [Char.toLower_eq_of_isUpper upper, ← Char.toNat_inj, Char.toNat_ofNat] at small
        rw [← Char.toNat_inj]
        split at small
        · simpa using small
        · cases small
      · have lowered := Char.isUpper_toLower_eq_false c
        rw [capital] at lowered
        cases lowered
    · rw [Char.toLower_eq_of_not_isUpper upper]
      exact id
  · rintro (rfl | rfl) <;> decide

/-- A text in small letters. -/
def inLower (cs : List Char) : List Char := cs.map Char.toLower

theorem filter_inLower (cs : List Char) :
    (inLower cs).filter (· ≠ '_') = inLower (cs.filter (· ≠ '_')) := by
  rw [inLower, inLower, List.filter_map]
  congr 2
  funext c
  simp only [Function.comp_apply, ne_eq, toLower_eq_iff (show '_'.isAlpha = false from rfl)]

theorem splitSign_inLower (cs : List Char) :
    splitSign (inLower cs) = ((splitSign cs).1, inLower (splitSign cs).2) := by
  cases cs with
  | nil => rfl
  | cons c rest =>
    by_cases minus : c = '-'
    · subst minus
      rfl
    by_cases plus : c = '+'
    · subst plus
      rfl
    have unsigned : ∀ {d : Char} {ds : List Char}, d ≠ '-' → d ≠ '+' →
        splitSign (d :: ds) = (false, d :: ds) := by
      intro d ds notMinus notPlus
      simp [splitSign, notMinus, notPlus]
    rw [unsigned minus plus]
    exact unsigned (mt (toLower_eq_iff rfl).mp minus) (mt (toLower_eq_iff rfl).mp plus)

theorem isDigit_comp_toLower : Char.isDigit ∘ Char.toLower = Char.isDigit := funext isDigit_toLower

theorem inLower_of_digits (digits : Digits cs) : inLower cs = cs := by
  rw [inLower, List.map_congr_left (fun c member => toLower_of_isDigit (digits c member))]
  exact List.map_id cs

theorem takeWhile_inLower (cs : List Char) :
    (inLower cs).takeWhile Char.isDigit = cs.takeWhile Char.isDigit := by
  rw [inLower, List.takeWhile_map, isDigit_comp_toLower]
  exact inLower_of_digits fun _ => List.mem_takeWhile_imp

theorem dropWhile_inLower (cs : List Char) :
    (inLower cs).dropWhile Char.isDigit = inLower (cs.dropWhile Char.isDigit) := by
  rw [inLower, List.dropWhile_map, isDigit_comp_toLower]
  rfl

theorem fractionPart_inLower (cs : List Char) :
    fractionPart (inLower cs) = ((fractionPart cs).1, inLower (fractionPart cs).2) := by
  cases cs with
  | nil => rfl
  | cons c rest =>
    by_cases point : c = '.'
    · subst point
      exact Prod.ext (takeWhile_inLower rest) (dropWhile_inLower rest)
    · have others : ∀ {d : Char} {ds : List Char}, d ≠ '.' →
          fractionPart (d :: ds) = ([], d :: ds) := by
        intro d ds notPoint
        simp [fractionPart, notPoint]
      rw [others point]
      exact others (mt (toLower_eq_iff rfl).mp point)

theorem exponentPart?_inLower (cs : List Char) : exponentPart? (inLower cs) = exponentPart? cs := by
  cases cs with
  | nil => rfl
  | cons letter rest =>
    have lowered : inLower (letter :: rest) = letter.toLower :: inLower rest := rfl
    have same : (inLower (splitSign rest).2).all Char.isDigit =
        (splitSign rest).2.all Char.isDigit := by
      rw [inLower, List.all_map, isDigit_comp_toLower]
    have nonempty : inLower (splitSign rest).2 ≠ [] ↔ (splitSign rest).2 ≠ [] := by
      rw [inLower, ne_eq, List.map_eq_nil_iff]
    rw [lowered]
    simp only [exponentPart?, isExponentLetter_toLower, splitSign_inLower, same, nonempty]
    split_ifs with mark digits
    all_goals try rfl
    all_goals rw [inLower_of_digits (List.all_eq_true.mp digits.2)]

theorem decimal?_inLower (cs : List Char) : decimal? (inLower cs) = decimal? cs := by
  simp only [decimal?, takeWhile_inLower, dropWhile_inLower, fractionPart_inLower,
    exponentPart?_inLower]

theorem numeralOfChars?_inLower (cs : List Char) :
    numeralOfChars? (inLower cs) = numeralOfChars? cs := by
  have twice : ∀ ds : List Char, (inLower ds).map Char.toLower = ds.map Char.toLower := by
    intro ds
    simp [inLower]
  rw [numeralOfChars?_eq, numeralOfChars?_eq, filter_inLower, splitSign_inLower]
  simp only [unsignedNumeral?, twice, decimal?_inLower]

/-! Texts of digits, points and separators. -/

theorem IsMantissa.digits_and_point (isMantissa : IsMantissa cs) :
    (∃ c ∈ cs, c.isDigit = true) ∧ cs.count '.' ≤ 1 := by
  have pointFree : ∀ {ds : List Char}, Digits ds → ds.count '.' = 0 := by
    intro ds digits
    refine List.count_eq_zero.mpr fun member => ?_
    cases digits '.' member
  have some : ∀ {ds : List Char}, ds ≠ [] → Digits ds → ∃ c ∈ ds, c.isDigit = true := by
    intro ds nonempty digits
    obtain ⟨c, member⟩ := List.exists_mem_of_ne_nil ds nonempty
    exact ⟨c, member, digits c member⟩
  cases isMantissa with
  | whole nonempty digits =>
    rw [pointFree digits]
    exact ⟨some nonempty digits, Nat.zero_le 1⟩
  | point nonempty digits fraction =>
    obtain ⟨c, member, digit⟩ := some nonempty digits
    rw [List.count_append, List.count_cons_self, pointFree digits, pointFree fraction]
    exact ⟨⟨c, List.mem_append_left _ member, digit⟩, Nat.le_refl 1⟩
  | leadingPoint nonempty fraction =>
    obtain ⟨c, member, digit⟩ := some nonempty fraction
    rw [List.count_cons_self, pointFree fraction]
    exact ⟨⟨c, List.mem_cons_of_mem _ member, digit⟩, Nat.le_refl 1⟩

theorem isMantissa_of_digits_and_point (plain : ∀ c ∈ cs, c.isDigit = true ∨ c = '.')
    (digit : ∃ c ∈ cs, c.isDigit = true) (single : cs.count '.' ≤ 1) : IsMantissa cs := by
  have digits : ∀ {ds : List Char}, ds ⊆ cs → ds.count '.' = 0 → Digits ds := by
    intro ds inside free c member
    refine (plain c (inside member)).resolve_right ?_
    rintro rfl
    exact List.count_eq_zero.mp free member
  by_cases point : '.' ∈ cs
  · obtain ⟨front, back, rfl⟩ := List.append_of_mem point
    rw [List.count_append, List.count_cons_self] at single
    have isFront : Digits front := digits (List.subset_append_left _ _) (by omega)
    have isBack : Digits back :=
      digits (List.Subset.trans (List.subset_cons_self _ _) (List.subset_append_right _ _))
        (by omega)
    by_cases empty : front = []
    · subst empty
      refine .leadingPoint ?_ isBack
      rintro rfl
      obtain ⟨c, member, isDigit⟩ := digit
      cases List.mem_singleton.mp member
      cases isDigit
    · exact .point empty isFront isBack
  · obtain ⟨c, member, -⟩ := digit
    exact .whole (List.ne_nil_of_mem member)
      (digits (List.Subset.refl _) (List.count_eq_zero.mpr point))

/-- Without letters and signs a numeral is a mantissa. -/
theorem isNumeral_iff_of_plain (plain : ∀ c ∈ cs, c.isDigit = true ∨ c = '.') :
    IsNumeral cs ↔ (∃ c ∈ cs, c.isDigit = true) ∧ cs.count '.' ≤ 1 := by
  have free : ∀ c, c.isDigit = false → c ≠ '.' → c ∉ cs := by
    intro c notDigit notPoint member
    rcases plain c member with digit | point
    · rw [digit] at notDigit
      cases notDigit
    · exact notPoint point
  constructor
  · rintro ⟨isSign, isUnsigned⟩
    cases isSign with
    | plus => exact absurd (by simp) (free '+' rfl (by decide))
    | minus => exact absurd (by simp) (free '-' rfl (by decide))
    | absent =>
      cases isUnsigned with
      | @word word cs known spells =>
        have letter : 'n' ∈ word.toList := by
          simp only [List.mem_cons, List.not_mem_nil, or_false] at known
          rcases known with rfl | rfl | rfl <;> decide
        rw [← spells] at letter
        obtain ⟨c, member, small⟩ := List.mem_map.mp letter
        rcases plain c member with digit | rfl
        · rw [toLower_of_isDigit digit] at small
          rw [small] at digit
          cases digit
        · cases small
      | decimal isMantissa isExponent =>
        cases isExponent with
        | absent => simpa using isMantissa.digits_and_point
        | present mark =>
          rcases mark with rfl | rfl
          · exact absurd (by simp) (free 'e' rfl (by decide))
          · exact absurd (by simp) (free 'E' rfl (by decide))
  · rintro ⟨digit, single⟩
    have whole := IsNumeral.intro .absent
      (.decimal (isMantissa_of_digits_and_point plain digit single) .absent)
    simpa using whole

end Number

namespace Reading

variable {isOperator : Char → Bool}

/-- A source that is one lexeme with a numeral for its text. -/
theorem read_of_lexeme {source text : String} {c : Char} {cs : List Char}
    (shape : source.toList = c :: cs)
    (lexed : lexeme isOperator 0 c cs = .ofNumeral text.toList source.length source.length []) :
    read isOperator source =
      match Number.numeral? text with
      | some x => .ok ⟨source.length, [.number x]⟩
      | none => .error ⟨.badNumber text, source.length⟩ := by
  rw [Lexeme.ofNumeral, String.ofList_toList] at lexed
  rw [Number.numeral?]
  cases found : Number.numeralOfChars? text.toList with
  | some x =>
    rw [found] at lexed
    have reads := Reads.token lexed .finish
    rw [← shape] at reads
    exact reads.read_eq
  | none =>
    rw [found] at lexed
    have reads := Reads.invalid lexed
    rw [← shape] at reads
    exact reads.read_eq

/-- A text of numeric characters is read as one numeral. -/
theorem read_numeric {text : String} (nonempty : text ≠ "")
    (numeric : ∀ c ∈ text.toList, isNumeric c = true) :
    read isOperator text =
      match Number.numeral? text with
      | some x => .ok ⟨text.length, [.number x]⟩
      | none => .error ⟨.badNumber text, text.length⟩ := by
  obtain ⟨c, cs, shape⟩ := List.exists_cons_of_ne_nil (mt String.toList_eq_nil_iff.mp nonempty)
  have first : isNumeric c = true := numeric c (by rw [shape]; exact List.mem_cons_self)
  have others : ∀ d ∈ cs, isNumeric d = true := fun d member =>
    numeric d (by rw [shape]; exact List.mem_cons_of_mem c member)
  have length : 0 + 1 + cs.length = text.length := by
    rw [← String.length_toList, shape, List.length_cons]
    omega
  refine read_of_lexeme shape ?_
  rw [lexeme, if_pos first, List.takeWhile_eq_self_iff.mpr others,
    List.dropWhile_eq_nil_iff.mpr others, ← shape, length]

end Reading

open Number Reading

/-- What counts of a text that is to be a numeral: the digits, and that there is one point. -/
theorem isSome_numeral?_of_numeric {text : String}
    (numeric : ∀ c ∈ text.toList, c.isDigit = true ∨ c = '.' ∨ c = '_') :
    (numeral? text).isSome = true ↔
      (∃ c ∈ text.toList, c.isDigit = true) ∧ text.toList.count '.' ≤ 1 := by
  have plain : ∀ c ∈ text.toList.filter (· ≠ '_'), c.isDigit = true ∨ c = '.' := by
    intro c member
    obtain ⟨inside, other⟩ := List.mem_filter.mp member
    rcases numeric c inside with digit | point | rfl
    · exact .inl digit
    · exact .inr point
    · cases other
  have digits : (∃ c ∈ text.toList.filter (· ≠ '_'), c.isDigit = true) ↔
      ∃ c ∈ text.toList, c.isDigit = true := by
    constructor
    · rintro ⟨c, member, digit⟩
      exact ⟨c, List.mem_of_mem_filter member, digit⟩
    · rintro ⟨c, member, digit⟩
      refine ⟨c, List.mem_filter.mpr ⟨member, ?_⟩, digit⟩
      rw [decide_eq_true_eq]
      rintro rfl
      cases digit
  rw [numeral?, isSome_numeralOfChars?_iff, isNumeral_iff_of_plain plain, digits,
    List.count_filter (by decide)]

/-- Only the word is read as NaN. -/
theorem isNaN_numeral? {text : String} {x : Float} (found : numeral? text = some x) :
    x.isNaN = true ↔ ∃ negative sign word, IsSign negative sign ∧ Spells "nan" word ∧
      text.toList.filter (· ≠ '_') = sign ++ word := by
  rw [numeral?, numeralOfChars?_eq] at found
  rw [isNaN_unsignedNumeral? found]
  constructor
  · intro spells
    obtain ⟨sign, isSign, parts⟩ := exists_sign (text.toList.filter (· ≠ '_'))
    exact ⟨_, sign, _, isSign, spells, parts⟩
  · rintro ⟨negative, sign, word, isSign, spells, parts⟩
    have unsigned : Unsigned word := IsUnsigned.unsigned (.word (by simp) spells)
    rw [parts, splitSign_append isSign unsigned]
    exact spells

/-- A sign in front of a numeral without one. -/
theorem numeral?_signed {text : String} {x : Float} (found : numeral? text = some x)
    (unsigned : Unsigned (text.toList.filter (· ≠ '_'))) :
    numeral? ("-" ++ text) = some (-x) ∧ numeral? ("+" ++ text) = some x := by
  have alone := splitSign_append .absent unsigned
  rw [List.nil_append] at alone
  rw [numeral?, numeralOfChars?_eq, alone] at found
  have minus : (("-" ++ text).toList).filter (· ≠ '_') =
      ['-'] ++ text.toList.filter (· ≠ '_') := by simp
  have plus : (("+" ++ text).toList).filter (· ≠ '_') =
      ['+'] ++ text.toList.filter (· ≠ '_') := by simp
  constructor
  · rw [numeral?, numeralOfChars?_eq, minus, splitSign_append .minus unsigned]
    exact (unsignedNumeral?_not false _).trans (by rw [found]; rfl)
  · rw [numeral?, numeralOfChars?_eq, plus, splitSign_append .plus unsigned]
    exact found

/-- The texts of the grammar are numerals, and no others. Neither separators nor the case of letters
change a numeral, and a sign only negates it. -/
theorem numerals_follow_grammar :
    (∀ text : String,
      ((numeral? text).isSome = true ↔ IsNumeral (text.toList.filter (· ≠ '_'))) ∧
      numeral? (String.ofList (text.toList.filter (· ≠ '_'))) = numeral? text ∧
      ∀ other : String, other.toList.map Char.toLower = text.toList.map Char.toLower →
        numeral? other = numeral? text) ∧
    (∀ (text : String) (x : Float), numeral? text = some x →
      (x.isNaN = true ↔ ∃ negative sign word, IsSign negative sign ∧ Spells "nan" word ∧
        text.toList.filter (· ≠ '_') = sign ++ word) ∧
      ((∀ c ∈ (text.toList.filter (· ≠ '_')).head?, c ≠ '+' ∧ c ≠ '-') →
        numeral? ("-" ++ text) = some (-x) ∧ numeral? ("+" ++ text) = some x)) ∧
    ∀ (isOperator : Char → Bool) (text : String), text ≠ "" →
      (∀ c ∈ text.toList, c.isDigit = true ∨ c = '.' ∨ c = '_') →
      ((∃ x, read isOperator text = .ok ⟨text.length, [.number x]⟩) ↔
        (∃ c ∈ text.toList, c.isDigit = true) ∧ text.toList.count '.' ≤ 1) := by
  refine ⟨fun text => ⟨isSome_numeralOfChars?_iff, ?_, ?_⟩,
    fun text x found => ⟨isNaN_numeral? found, numeral?_signed found⟩, ?_⟩
  · rw [numeral?, numeral?, numeralOfChars?_eq, numeralOfChars?_eq, String.toList_ofList,
      List.filter_filter]
    simp only [Bool.and_self]
  · intro other same
    rw [numeral?, numeral?, ← numeralOfChars?_inLower, ← numeralOfChars?_inLower text.toList]
    exact congrArg _ same
  · intro isOperator text nonempty numeric
    have isNumber : ∀ c ∈ text.toList, isNumeric c = true := by
      intro c member
      rcases numeric c member with digit | rfl | rfl
      · simp [isNumeric, digit]
      · rfl
      · rfl
    rw [← isSome_numeral?_of_numeric numeric, read_numeric nonempty isNumber]
    cases numeral? text with
    | none => simp
    | some x => simp

/-- A numeral with separators everywhere, with its capital letter, with a sign, and the bare number
that its mantissa is. -/
theorem numerals_follow_grammar_separated :
    (∃ x, numeral? "_1_.e-_3" = some x ∧
      (∀ c ∈ ("_1_.e-_3".toList.filter (· ≠ '_')).head?, c ≠ '+' ∧ c ≠ '-') ∧
      numeral? "_1_.E-_3" = some x ∧ numeral? ("-" ++ "_1_.e-_3") = some (-x)) ∧
    (∀ c ∈ "_1_.".toList, c.isDigit = true ∨ c = '.' ∨ c = '_') ∧
    ∃ x, read (· = '-') "_1_." = .ok ⟨4, [.number x]⟩ := by
  obtain ⟨texts, values, bare⟩ := numerals_follow_grammar
  have found : ∃ x, numeral? "_1_.e-_3" = some x := ⟨_, rfl⟩
  obtain ⟨x, found⟩ := found
  have unsigned : ∀ c ∈ ("_1_.e-_3".toList.filter (· ≠ '_')).head?, c ≠ '+' ∧ c ≠ '-' := by
    rintro c ⟨⟩
    decide
  have capital : numeral? "_1_.E-_3" = numeral? "_1_.e-_3" :=
    (texts "_1_.e-_3").2.2 "_1_.E-_3" (by decide)
  have numeric : ∀ c ∈ "_1_.".toList, c.isDigit = true ∨ c = '.' ∨ c = '_' := by
    simp [Char.isDigit]
  have negated : numeral? ("-" ++ "_1_.e-_3") = some (-x) :=
    ((values "_1_.e-_3" x found).2 unsigned).1
  refine ⟨⟨x, found, unsigned, capital.trans found, negated⟩, numeric, ?_⟩
  exact (bare (· = '-') "_1_." (by decide) numeric).mpr ⟨⟨'1', by decide, rfl⟩, by decide⟩

end Cairn
