import Cairn.Number.Arithmetic
import Cairn.Proofs.Rounding

set_option autoImplicit false

/-!
# Whole numbers among the doubles

A finite double is a rational number. Stack positions and repeat counts are worked out on its sign,
mantissa and exponent; here they are said of the rational number.
-/

namespace Cairn.Number

variable {x : Float} {n : Nat} {q : ℚ}

/-- The rational number that a finite double is. -/
def value? (x : Float) : Option ℚ :=
  match parts x with
  | .finite negative mantissa exponent =>
    some ((if negative then -1 else 1) * (mantissa * 2 ^ exponent))
  | .nan | .infinite _ => none

/-- A magnitude as a quotient of whole numbers. -/
theorem mantissa_mul_power (mantissa : Nat) (exponent : Int) :
    (mantissa : ℚ) * 2 ^ exponent =
      (mantissa * raise 2 exponent : Nat) / (lower 2 exponent : Nat) := by
  have power : (raise 2 exponent : ℚ) / lower 2 exponent = 2 ^ exponent :=
    raise_div_lower (by decide) exponent
  rw [← power]
  push_cast
  ring

theorem div_eq_iff_whole {num den : Nat} (positive : 0 < den) :
    (num : ℚ) / den = n ↔ num % den = 0 ∧ num / den = n := by
  rw [div_eq_iff (by positivity)]
  norm_cast
  constructor
  · rintro rfl
    exact ⟨Nat.mul_mod_left n den, Nat.mul_div_cancel n positive⟩
  · rintro ⟨whole, rfl⟩
    exact (Nat.div_mul_cancel (Nat.dvd_of_mod_eq_zero whole)).symm

/-- A position is a number that is whole and not negative; both zeros are the position zero. -/
theorem toNat?_eq_some_iff : toNat? x = some n ↔ value? x = some (n : ℚ) := by
  unfold toNat? value?
  cases isFinite : parts x with
  | nan => simp
  | infinite negative => simp
  | finite negative mantissa exponent =>
    have positive : 0 < lower 2 exponent := lower_pos (by decide) exponent
    have whole : ((mantissa * raise 2 exponent : Nat) : ℚ) / (lower 2 exponent : Nat) = n ↔ _ :=
      div_eq_iff_whole positive
    simp only [wholePart, isFinite, mantissa_mul_power, Option.some.injEq]
    cases negative with
    | false => simpa [and_comm] using whole.symm
    | true =>
      by_cases zero : mantissa = 0
      · subst zero
        simp [eq_comm]
      · have raised : 0 < raise 2 exponent := raise_pos (by decide) exponent
        have above : (0 : ℚ) < (mantissa * raise 2 exponent : Nat) / (lower 2 exponent : Nat) := by
          have nonzero : 0 < mantissa := Nat.pos_of_ne_zero zero
          positivity
        have natural : (0 : ℚ) ≤ n := Nat.cast_nonneg n
        simp only [zero, ne_eq, not_false_eq_true, and_self, or_true, ↓reduceIte, reduceCtorEq,
          false_iff]
        intro same
        linarith

theorem wholePart_eq_floor {negative : Bool} {mantissa : Nat} {exponent : Int}
    (isFinite : parts x = .finite negative mantissa exponent) :
    wholePart x = ⌊(mantissa : ℚ) * 2 ^ exponent⌋₊ := by
  rw [wholePart, isFinite, mantissa_mul_power, Nat.floor_div_eq_div]

/-- A rational number rounded toward zero. -/
def truncate (q : ℚ) : ℤ := if 0 ≤ q then ⌊q⌋ else ⌈q⌉

theorem toNat_truncate (q : ℚ) : (truncate q).toNat = ⌊q⌋₊ := by
  unfold truncate
  split
  next => exact Int.floor_toNat q
  next negative =>
    have below : ⌈q⌉ ≤ 0 := Int.ceil_le.mpr (by simpa using (not_le.mp negative).le)
    rw [Int.toNat_of_nonpos below, Nat.floor_of_nonpos (not_le.mp negative).le]

/-- How often a number tells to repeat: as often as its whole part says if that is positive, and
never otherwise. Only numbers up to `2 ^ 53` can be counted to. -/
inductive Counts : Float → Nat → Prop
  | nan : Counts nan 0
  | negativeInfinity : Counts (infinity true) 0
  | finite {x : Float} {q : ℚ} (value : value? x = some q) (countable : |q| ≤ 2 ^ 53) :
      Counts x (max 0 (truncate q)).toNat

theorem repetitions_of_counts (counts : Counts x n) : repetitions x = .times n := by
  cases counts with
  | nan => decide +kernel
  | negativeInfinity => decide +kernel
  | @finite _ q value countable =>
    have count : (max 0 (truncate q)).toNat = ⌊q⌋₊ := by
      rw [← toNat_truncate]
      omega
    rw [count]
    unfold repetitions
    unfold value? at value
    cases isFinite : parts x with
    | nan => simp [isFinite] at value
    | infinite negative => simp [isFinite] at value
    | finite negative mantissa exponent =>
      have magnitude : (0 : ℚ) ≤ mantissa * 2 ^ exponent := by positivity
      simp only [isFinite, Option.some.injEq] at value
      cases negative with
      | true =>
        have below : q ≤ 0 := by
          simp only [if_true] at value
          linarith
        simp [Nat.floor_of_nonpos below]
      | false =>
        simp only [Bool.false_eq_true, if_false, one_mul] at value
        rw [wholePart_eq_floor isFinite, value]
        have bounded : ⌊q⌋₊ ≤ 2 * leadingBit := by
          apply Nat.floor_le_of_le
          exact (le_abs_self q).trans (countable.trans (by norm_num [leadingBit]))
        simp [Nat.not_lt.mpr bounded]

end Cairn.Number
