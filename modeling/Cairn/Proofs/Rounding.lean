import Cairn.Number.Shortest
import Mathlib

set_option autoImplicit false

/-!
# Rounding

Rounding to the nearest double is a matter of the rational number alone, whatever fraction or
decimal spells it, and a finite pattern is the one nearest to its own value. So every decimal with
the value of a double reads back to the double, the shortest one among them.
-/

namespace Cairn.Number

theorem raise_div_lower {base : Nat} (positive : 0 < base) (e : Int) :
    (raise base e : ℚ) / lower base e = (base : ℚ) ^ e := by
  have nonzero : (base : ℚ) ≠ 0 := by positivity
  obtain ⟨n, rfl | rfl⟩ := e.eq_nat_or_neg
  · simp [raise, lower]
  · simp [raise, lower]

theorem raise_pos {base : Nat} (positive : 0 < base) (e : Int) : 0 < raise base e :=
  Nat.pow_pos positive

theorem lower_pos {base : Nat} (positive : 0 < base) (e : Int) : 0 < lower base e :=
  Nat.pow_pos positive

theorem log_eq_of_bounds {base : Nat} (big : 1 < base) {r : ℚ} {e : Int}
    (lowerBound : (base : ℚ) ^ e ≤ r) (upperBound : r < (base : ℚ) ^ (e + 1)) :
    Int.log base r = e := by
  have positive : 0 < r := lt_of_lt_of_le (by positivity) lowerBound
  have atLeast := (Int.zpow_le_iff_le_log big positive).mp lowerBound
  have below := (Int.lt_zpow_iff_log_lt big positive).mp upperBound
  omega

theorem le_mul_lower_iff {num den : Nat} (positive : 0 < den) (e : Int) :
    den * raise 2 e ≤ num * lower 2 e ↔ (2 : ℚ) ^ e ≤ (num : ℚ) / den := by
  have lowerPositive := lower_pos (show 0 < 2 by decide) e
  have power : (raise 2 e : ℚ) / lower 2 e = 2 ^ e := raise_div_lower (by decide) e
  rw [← power, div_le_div_iff₀ (by positivity) (by positivity), Nat.mul_comm]
  norm_cast

/-- The binary exponent of a fraction is the integer logarithm of its value. -/
theorem floorLog2_eq_log {num den : Nat} (numPositive : 0 < num) (denPositive : 0 < den) :
    floorLog2 num den = Int.log 2 ((num : ℚ) / den) := by
  have numLower : (2 : ℚ) ^ (num.log2 : Int) ≤ num := by
    exact_mod_cast Nat.log2_self_le numPositive.ne'
  have numUpper : (num : ℚ) < 2 ^ (num.log2 + 1 : Int) := by
    exact_mod_cast Nat.lt_log2_self
  have denLower : (2 : ℚ) ^ (den.log2 : Int) ≤ den := by
    exact_mod_cast Nat.log2_self_le denPositive.ne'
  have denUpper : (den : ℚ) < 2 ^ (den.log2 + 1 : Int) := by
    exact_mod_cast Nat.lt_log2_self
  have below : (num : ℚ) / den < 2 ^ ((num.log2 : Int) - den.log2 + 1) := by
    rw [div_lt_iff₀ (by positivity)]
    calc
      (num : ℚ) < 2 ^ (num.log2 + 1 : Int) := numUpper
      _ = 2 ^ ((num.log2 : Int) - den.log2 + 1) * 2 ^ (den.log2 : Int) := by
        rw [← zpow_add₀ (by norm_num)]
        congr 1
        omega
      _ ≤ _ := by gcongr
  have above : (2 : ℚ) ^ ((num.log2 : Int) - den.log2 - 1) ≤ num / den := by
    rw [le_div_iff₀ (by positivity)]
    calc
      (2 : ℚ) ^ ((num.log2 : Int) - den.log2 - 1) * den
          ≤ 2 ^ ((num.log2 : Int) - den.log2 - 1) * 2 ^ (den.log2 + 1 : Int) := by gcongr
      _ = 2 ^ (num.log2 : Int) := by
        rw [← zpow_add₀ (by norm_num)]
        congr 1
        omega
      _ ≤ num := numLower
  unfold floorLog2
  dsimp only
  split
  next fits =>
    exact (log_eq_of_bounds (by decide) ((le_mul_lower_iff denPositive _).mp fits) below).symm
  next exceeds =>
    rw [le_mul_lower_iff denPositive, not_le] at exceeds
    refine (log_eq_of_bounds (by decide) above ?_).symm
    simpa using exceeds

theorem roundHalfEven_mul {factor : Nat} (positive : 0 < factor) (num den : Nat) :
    roundHalfEven (factor * num) (factor * den) = roundHalfEven num den := by
  have twice : ∀ rest, 2 * (factor * rest) = factor * (2 * rest) := fun rest => by ring
  simp only [roundHalfEven, Nat.mul_div_mul_left _ _ positive, Nat.mul_mod_mul_left, twice,
    Nat.mul_lt_mul_left positive]

theorem nearest_mul {factor num den : Nat} (factorPositive : 0 < factor) (denPositive : 0 < den) :
    nearest (factor * num) (factor * den) = nearest num den := by
  by_cases zero : num = 0
  · simp [nearest, zero]
  · have numPositive : 0 < num := Nat.pos_of_ne_zero zero
    have ratio : ((factor * num : Nat) : ℚ) / (factor * den : Nat) = num / den := by
      push_cast
      exact mul_div_mul_left _ _ (by positivity)
    have exponent : floorLog2 (factor * num) (factor * den) = floorLog2 num den := by
      rw [floorLog2_eq_log (by positivity) (by positivity), ratio,
        floorLog2_eq_log numPositive denPositive]
    simp only [nearest, exponent, Nat.mul_assoc, roundHalfEven_mul factorPositive]
    rw [if_neg (by positivity), if_neg zero]

/-- Equal ratios round to the same pattern. -/
theorem nearest_eq_of_ratio_eq {num den num' den' : Nat} (denPositive : 0 < den)
    (denPositive' : 0 < den') (ratio : (num : ℚ) / den = num' / den') :
    nearest num den = nearest num' den' := by
  have crossed : den' * num = den * num' := by
    rw [div_eq_div_iff (by positivity) (by positivity)] at ratio
    have exact_ratio : num * den' = num' * den := by exact_mod_cast ratio
    rw [Nat.mul_comm den', exact_ratio, Nat.mul_comm]
  calc
    nearest num den = nearest (den' * num) (den' * den) :=
      (nearest_mul denPositive' denPositive).symm
    _ = nearest (den * num') (den * den') := by rw [crossed, Nat.mul_comm den' den]
    _ = nearest num' den' := nearest_mul denPositive denPositive'

theorem mantissaOf_pos {bits : Nat} (positive : 0 < bits) : 0 < mantissaOf bits := by
  unfold mantissaOf leadingBit
  split <;> omega

theorem mantissaOf_lt (bits : Nat) : mantissaOf bits < 2 * leadingBit := by
  unfold mantissaOf leadingBit
  split <;> omega

theorem roundHalfEven_of_exact (n : Nat) {den : Nat} (positive : 0 < den) :
    roundHalfEven (n * den) den = n := by
  simp [roundHalfEven, Nat.mul_div_cancel _ positive, positive]

theorem roundHalfEven_scaled (n : Nat) (e : Int) :
    roundHalfEven (n * raise 2 e * lower 2 e) (lower 2 e * raise 2 e) = n := by
  have raisePositive := raise_pos (show 0 < 2 by decide) e
  have lowerPositive := lower_pos (show 0 < 2 by decide) e
  rw [Nat.mul_assoc, Nat.mul_comm (lower 2 e)]
  exact roundHalfEven_of_exact n (by positivity)

theorem floorLog2_scaled {mantissa : Nat} (positive : 0 < mantissa) (e : Int) :
    floorLog2 (mantissa * raise 2 e) (lower 2 e) = mantissa.log2 + e := by
  have raisePositive := raise_pos (show 0 < 2 by decide) e
  have lowerPositive := lower_pos (show 0 < 2 by decide) e
  rw [floorLog2_eq_log (by positivity) lowerPositive]
  have power : (raise 2 e : ℚ) / lower 2 e = 2 ^ e := raise_div_lower (by decide) e
  have ratio : ((mantissa * raise 2 e : Nat) : ℚ) / lower 2 e = mantissa * 2 ^ e := by
    push_cast
    rw [mul_div_assoc, power]
  rw [ratio]
  have mantissaLower : (2 : ℚ) ^ (mantissa.log2 : Int) ≤ mantissa := by
    exact_mod_cast Nat.log2_self_le positive.ne'
  have mantissaUpper : (mantissa : ℚ) < 2 ^ (mantissa.log2 + 1 : Int) := by
    exact_mod_cast Nat.lt_log2_self
  apply log_eq_of_bounds (by decide)
  · push_cast
    rw [zpow_add₀ (by norm_num)]
    gcongr
  · push_cast
    rw [add_right_comm, zpow_add₀ (by norm_num)]
    gcongr

/-- A finite pattern is the pattern nearest to its own value. -/
theorem nearest_mantissaOf {bits : Nat} (positive : 0 < bits) (isFinite : bits < infinityBits) :
    nearest (mantissaOf bits * raise 2 (exponentOf bits)) (lower 2 (exponentOf bits)) = bits := by
  have mantissaPositive := mantissaOf_pos positive
  have raisePositive := raise_pos (show 0 < 2 by decide) (exponentOf bits)
  -- the rounding exponent is the exponent of the pattern, for normal patterns through the leading
  -- bit and for the others through the least exponent
  have exponent : max (floorLog2 (mantissaOf bits * raise 2 (exponentOf bits))
      (lower 2 (exponentOf bits)) - 52) (-1074) = exponentOf bits := by
    rw [floorLog2_scaled mantissaPositive]
    by_cases subnormal : bits < leadingBit
    · have small : (mantissaOf bits).log2 < 52 := by
        rw [Nat.log2_lt mantissaPositive.ne', mantissaOf, if_pos subnormal]
        exact subnormal
      rw [exponentOf, if_pos subnormal]
      omega
    · have large : (mantissaOf bits).log2 = 52 := by
        rw [Nat.log2_eq_iff mantissaPositive.ne', mantissaOf, if_neg subnormal]
        unfold leadingBit
        omega
      rw [large, exponentOf, if_neg subnormal]
      unfold leadingBit at subnormal ⊢
      omega
  have pattern : (exponentOf bits + 1074).toNat * leadingBit + mantissaOf bits = bits := by
    unfold exponentOf mantissaOf
    split
    · simp
    · unfold leadingBit at *
      omega
  unfold nearest
  rw [if_neg (by positivity)]
  simp only [exponent, roundHalfEven_scaled, pattern]
  omega

namespace Decimal

/-- The number a decimal stands for. -/
def value (d : Decimal) : ℚ := d.digits * 10 ^ d.exponent

theorem value_eq_zero_iff (d : Decimal) : d.value = 0 ↔ d.digits = 0 := by
  simp [value, zpow_ne_zero]

theorem ratio_eq_value (d : Decimal) :
    ((d.digits * raise 10 d.exponent : Nat) : ℚ) / lower 10 d.exponent = d.value := by
  have power : (raise 10 d.exponent : ℚ) / lower 10 d.exponent = 10 ^ d.exponent :=
    raise_div_lower (by decide) d.exponent
  push_cast
  rw [mul_div_assoc, power, value]

end Decimal

theorem decimalLength_go_eq {fuel n : Nat} (enough : n < 2 ^ fuel) :
    decimalLength.go fuel n = if n = 0 then 0 else Nat.log 10 n + 1 := by
  induction fuel generalizing n with
  | zero =>
    have zero : n = 0 := by simpa using enough
    simp [decimalLength.go, zero]
  | succ fuel inductionHypothesis =>
    by_cases zero : n = 0
    · simp [decimalLength.go, zero]
    · have shorter : n / 10 < 2 ^ fuel := by
        rw [Nat.pow_succ] at enough
        omega
      rw [decimalLength.go, if_neg zero, if_neg zero, inductionHypothesis shorter]
      by_cases oneDigit : n < 10
      · simp [Nat.div_eq_of_lt oneDigit, Nat.log_of_lt oneDigit]
      · have quotient : n / 10 ≠ 0 := by omega
        have step : Nat.log 10 n = Nat.log 10 (n / 10) + 1 :=
          Nat.log_of_one_lt_of_le (by decide) (by omega)
        rw [if_neg quotient, step]

theorem decimalLength_eq {n : Nat} (nonzero : n ≠ 0) : decimalLength n = Nat.log 10 n + 1 := by
  rw [decimalLength, decimalLength_go_eq Nat.lt_log2_self, if_neg nonzero]

namespace Decimal

/-- The place of the first digit is a matter of the value alone. -/
theorem top_eq_log {d : Decimal} (nonzero : d.digits ≠ 0) :
    d.exponent + decimalLength d.digits = Int.log 10 d.value + 1 := by
  have positive : 0 < d.digits := Nat.pos_of_ne_zero nonzero
  have lowerBound : (10 : ℚ) ^ (Nat.log 10 d.digits : Int) ≤ d.digits := by
    exact_mod_cast Nat.pow_log_le_self 10 nonzero
  have upperBound : (d.digits : ℚ) < 10 ^ (Nat.log 10 d.digits + 1 : Int) := by
    exact_mod_cast Nat.lt_pow_succ_log_self (by decide) d.digits
  have logarithm : Int.log 10 d.value = Nat.log 10 d.digits + d.exponent := by
    apply log_eq_of_bounds (by decide)
    · push_cast
      rw [zpow_add₀ (by norm_num), value]
      gcongr
    · push_cast
      rw [add_right_comm, zpow_add₀ (by norm_num), value]
      gcongr
  rw [decimalLength_eq nonzero, logarithm]
  push_cast
  ring

/-- Rounding a decimal is a matter of its value alone. -/
theorem nearest_eq_of_value_eq {d d' : Decimal} (same : d.value = d'.value) :
    d.nearest = d'.nearest := by
  by_cases zero : d.digits = 0
  · have zero' : d'.digits = 0 := by
      rw [← value_eq_zero_iff, ← same, value_eq_zero_iff]
      exact zero
    simp [nearest, zero, zero']
  · have nonzero' : d'.digits ≠ 0 := by
      rw [Ne, ← value_eq_zero_iff, ← same, value_eq_zero_iff]
      exact zero
    have rounded : Number.nearest (d.digits * raise 10 d.exponent) (lower 10 d.exponent) =
        Number.nearest (d'.digits * raise 10 d'.exponent) (lower 10 d'.exponent) := by
      apply nearest_eq_of_ratio_eq (lower_pos (by decide) _) (lower_pos (by decide) _)
      rw [ratio_eq_value, ratio_eq_value, same]
    simp only [nearest, top_eq_log zero, top_eq_log nonzero', same, rounded, zero, nonzero']

theorem value_step (n : Nat) (e : Int) (divides : n % 10 = 0) :
    value ⟨n / 10, e + 1⟩ = value ⟨n, e⟩ := by
  have whole : n = 10 * (n / 10) := by omega
  have cast : (n : ℚ) = 10 * (n / 10 : Nat) := by exact_mod_cast whole
  simp only [value, cast]
  rw [zpow_add₀ (by norm_num)]
  ring

theorem value_normal_go (fuel : Nat) (d : Decimal) : (normal.go fuel d).value = d.value := by
  induction fuel generalizing d with
  | zero => rfl
  | succ fuel inductionHypothesis =>
    rw [normal.go]
    split
    next trailing => rw [inductionHypothesis, value_step _ _ trailing.1]
    next => rfl

@[simp] theorem value_normal (d : Decimal) : d.normal.value = d.value := value_normal_go _ d

end Decimal

theorem nearest_of_readingBack? {bits num den : Nat} {exponent : Int} {d : Decimal}
    (hit : readingBack? bits num den exponent = some d) : d.nearest = bits := by
  simp only [readingBack?] at hit
  split at hit
  next below _ =>
    cases hit
    simpa using below
  next _ above =>
    cases hit
    simpa using above
  next below above =>
    split at hit <;> cases hit
    · simpa using below
    · simpa using above
  next => cases hit

theorem value_exactDecimal (mantissa : Nat) (e : Int) :
    (exactDecimal mantissa e).value = mantissa * 2 ^ e := by
  obtain ⟨n, rfl | rfl⟩ := e.eq_nat_or_neg
  · simp [exactDecimal, Decimal.value, raise, lower]
  · have tens : (10 : ℚ) ^ n = 2 ^ n * 5 ^ n := by rw [← mul_pow]; norm_num
    simp [exactDecimal, Decimal.value, raise, lower, tens]
    field_simp

theorem exponentOf_bounds {bits : Nat} (isFinite : bits < infinityBits) :
    -1074 ≤ exponentOf bits ∧ exponentOf bits ≤ 971 := by
  unfold infinityBits leadingBit at isFinite
  unfold exponentOf leadingBit
  split <;> omega

theorem two_pow_lt_ten_pow : 2 ^ 1024 < 10 ^ 310 := by decide +kernel

theorem two_pow_le_ten_pow : 2 ^ 1074 ≤ 10 ^ 331 := by decide +kernel

/-- The exact expansion of a finite pattern reads back: its value lies within the range in which
decimals are rounded. -/
theorem nearest_exactDecimal {bits : Nat} (positive : 0 < bits) (isFinite : bits < infinityBits) :
    (exactDecimal (mantissaOf bits) (exponentOf bits)).nearest = bits := by
  obtain ⟨exponentLower, exponentUpper⟩ := exponentOf_bounds isFinite
  have mantissaPositive := mantissaOf_pos positive
  have mantissaBound := mantissaOf_lt bits
  generalize exact : exactDecimal (mantissaOf bits) (exponentOf bits) = d
  have value : d.value = mantissaOf bits * 2 ^ exponentOf bits := by
    rw [← exact, value_exactDecimal]
  have valuePositive : 0 < d.value := by
    rw [value]
    positivity
  have nonzero : d.digits ≠ 0 := by
    rw [Ne, ← Decimal.value_eq_zero_iff]
    exact valuePositive.ne'
  have notAbove : Int.log 10 d.value < 310 := by
    rw [← Int.lt_zpow_iff_log_lt (by decide) valuePositive, value]
    calc
      (mantissaOf bits : ℚ) * 2 ^ exponentOf bits ≤ 2 ^ (53 : Int) * 2 ^ (971 : Int) := by
        gcongr
        · exact_mod_cast mantissaBound.le
        · norm_num
      _ = 2 ^ ((1024 : Nat) : Int) := (zpow_add₀ (by norm_num) _ _).symm
      _ < ((10 : Nat) : ℚ) ^ ((310 : Nat) : Int) := by
        rw [zpow_natCast, zpow_natCast]
        exact_mod_cast two_pow_lt_ten_pow
  have notBelow : -331 ≤ Int.log 10 d.value := by
    rw [← Int.zpow_le_iff_le_log (by decide) valuePositive, value]
    calc
      ((10 : Nat) : ℚ) ^ (-331 : Int) ≤ 1 * 2 ^ (-1074 : Int) := by
        rw [one_mul, zpow_neg, zpow_neg]
        apply inv_anti₀ (by positivity)
        exact_mod_cast two_pow_le_ten_pow
      _ ≤ (mantissaOf bits : ℚ) * 2 ^ exponentOf bits := by
        gcongr
        · exact_mod_cast mantissaPositive
        · norm_num
  have power : (raise 2 (exponentOf bits) : ℚ) / lower 2 (exponentOf bits) =
      2 ^ exponentOf bits := raise_div_lower (by decide) _
  simp only [Decimal.nearest, Decimal.top_eq_log nonzero]
  rw [if_neg nonzero, if_neg (by omega), if_neg (by omega)]
  calc
    Number.nearest (d.digits * raise 10 d.exponent) (lower 10 d.exponent) =
        Number.nearest (mantissaOf bits * raise 2 (exponentOf bits))
          (lower 2 (exponentOf bits)) := by
      apply nearest_eq_of_ratio_eq (lower_pos (by decide) _) (lower_pos (by decide) _)
      rw [Decimal.ratio_eq_value, value]
      push_cast
      rw [mul_div_assoc, power]
    _ = bits := nearest_mantissaOf positive isFinite

/-- The decimal a finite pattern is written as reads back to the pattern. -/
theorem nearest_shortest {bits : Nat} (positive : 0 < bits) (isFinite : bits < infinityBits) :
    (shortest bits).nearest = bits := by
  simp only [shortest]
  rw [Decimal.nearest_eq_of_value_eq (Decimal.value_normal _)]
  cases search : (List.range 17).findSome? fun n =>
      readingBack? bits (mantissaOf bits * raise 2 (exponentOf bits)) (lower 2 (exponentOf bits))
        (decimalExponent (mantissaOf bits * raise 2 (exponentOf bits))
          (lower 2 (exponentOf bits)) - (n + 1 : Nat)) with
  | none => exact nearest_exactDecimal positive isFinite
  | some d =>
    obtain ⟨_, _, hit⟩ := List.exists_of_findSome?_eq_some search
    exact nearest_of_readingBack? hit

end Cairn.Number
