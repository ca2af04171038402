import Cairn.Number.Text
import Cairn.Proofs.Doubles
import Mathlib

set_option autoImplicit false

/-!
# The two zeros

Zero has two patterns. Doubles compare as equal when they are the same up to the sign of zero and
none of them is a NaN; and a number is written without the sign of zero, so that it is the exact
text of another number that is the same up to this sign.
-/

namespace Cairn

namespace Number

open Float.Model

variable {x y : Float}

def negativeZero : Float := ofMagnitude true 0

theorem isNegativeZero_iff : isNegativeZero x = true ↔ x = negativeZero := by
  constructor
  · intro isZero
    simp only [isNegativeZero, Bool.and_eq_true, beq_iff_eq] at isZero
    rw [← ofMagnitude_magnitude x, isZero.1, isZero.2, negativeZero]
  · rintro rfl
    decide +kernel

/-- The number with zero in place of negative zero. -/
def plainZero (x : Float) : Float := if isNegativeZero x then 0 else x

/-- A double is determined by what it unpacks to. -/
theorem eq_of_unpack_eq (same : x.toModel.unpack = y.toModel.unpack) : x = y := by
  have whole : ∀ z : Float, z = ⟨pack z.toModel.unpack⟩ := fun z => (ofBits_toBits z).symm
  rw [whole x, whole y, same]

theorem exists_unpack_zero_iff :
    (∃ sign, x.toModel.unpack = .zero sign) ↔ x = 0 ∨ x = negativeZero := by
  have positive : (0 : Float).toModel.unpack = .zero .positive := rfl
  have negative : negativeZero.toModel.unpack = .zero .negative := rfl
  constructor
  · rintro ⟨sign, isZero⟩
    cases sign with
    | positive => exact .inl (eq_of_unpack_eq (isZero.trans positive.symm))
    | negative => exact .inr (eq_of_unpack_eq (isZero.trans negative.symm))
  · rintro (rfl | rfl)
    · exact ⟨_, positive⟩
    · exact ⟨_, negative⟩

/-- Doubles compare as equal if they are the same or both zeros, and none of them is a NaN. -/
theorem compare_eq_iff (u v : UnpackedFloat) :
    u.compare v = some .eq ↔ u.isNaN = false ∧ v.isNaN = false ∧
      (u = v ∨ (∃ sign, u = .zero sign) ∧ ∃ sign, v = .zero sign) := by
  cases u with
  | notANumber => simp [UnpackedFloat.compare, UnpackedFloat.isNaN]
  | infinity s =>
    cases v with
    | infinity t =>
      cases s <;> cases t <;> simp [UnpackedFloat.compare, UnpackedFloat.isNaN] <;> decide
    | _ => cases s <;> simp [UnpackedFloat.compare, UnpackedFloat.isNaN]
  | zero s =>
    cases v with
    | infinity t => cases t <;> simp [UnpackedFloat.compare, UnpackedFloat.isNaN]
    | finite t => cases t <;> simp [UnpackedFloat.compare, UnpackedFloat.isNaN]
    | _ => simp [UnpackedFloat.compare, UnpackedFloat.isNaN]
  | finite s m e =>
    cases v with
    | infinity t => cases s <;> cases t <;> simp [UnpackedFloat.compare, UnpackedFloat.isNaN]
    | finite t n f =>
      cases s <;> cases t <;>
        simp [UnpackedFloat.compare, UnpackedFloat.isNaN, Ordering.then_eq_eq, and_comm]
    | _ => cases s <;> simp [UnpackedFloat.compare, UnpackedFloat.isNaN]

theorem plainZero_eq_iff :
    plainZero x = plainZero y ↔
      x = y ∨ (x = 0 ∨ x = negativeZero) ∧ (y = 0 ∨ y = negativeZero) := by
  simp only [plainZero, isNegativeZero_iff]
  split_ifs with first second second
  · simp [first, second]
  · subst first
    simp [second, Ne.symm second, eq_comm]
  · subst second
    simp [first]
  · simp only [first, second, or_false]
    constructor
    · exact .inl
    · rintro (same | ⟨rfl, rfl⟩)
      · exact same
      · rfl

theorem beq_iff :
    (x == y) = true ↔
      x.isNaN = false ∧ y.isNaN = false ∧ plainZero x = plainZero y := by
  have compared : (x == y) = true ↔ x.toModel.unpack.compare y.toModel.unpack = some .eq := by
    change (x.toModel.unpack.compare y.toModel.unpack == some .eq) = true ↔ _
    exact beq_iff_eq
  have same : x.toModel.unpack = y.toModel.unpack ↔ x = y :=
    ⟨eq_of_unpack_eq, fun equality => by rw [equality]⟩
  rw [compared, compare_eq_iff, same, exists_unpack_zero_iff, exists_unpack_zero_iff,
    plainZero_eq_iff]
  rfl

theorem plainZero_ne_zero (x : Float) : (plainZero x != 0) = (x != 0) := by
  unfold plainZero
  split
  next isZero =>
    rw [isNegativeZero_iff] at isZero
    subst isZero
    decide +kernel
  next => rfl

/-- A number is written as what is left of it without the sign of zero. -/
theorem text_eq_exactText (x : Float) : text x = exactText (plainZero x) := by
  unfold plainZero
  split
  next isZero =>
    rw [isNegativeZero_iff] at isZero
    subst isZero
    decide +kernel
  next notZero => rw [exactText, if_neg notZero]

end Number

end Cairn
