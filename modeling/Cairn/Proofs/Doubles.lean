import Cairn.Number.Binary
import Mathlib

set_option autoImplicit false

/-!
Doubles are their bit patterns. A double carries one canonical pattern for NaN, so a pattern taken
from a double and made a double again is that double, and sign and magnitude determine it. Up to
infinity no magnitude is a NaN, and negation flips the sign.
-/

namespace Cairn.Number

open Float.Model Float.Model.UnpackedFloat

theorem packComponents_fields (bits : BitVec Format.binary64.numBits) :
    packComponents Format.binary64 (Sign.ofBitVec (unpackSign bits)) (unpackExponent bits)
      (unpackMantissa bits) = bits := by
  have sign : (Sign.ofBitVec (unpackSign bits)).toBitVec = unpackSign bits := by
    generalize unpackSign bits = signBits
    revert signBits
    decide
  unfold packComponents
  rw [sign]
  ext i inside
  simp [unpackSign, unpackExponent, unpackMantissa]
  grind

theorem pack_normal (sign : Sign) {exponent : BitVec 11} (mantissa : BitVec 52)
    (isFinite : exponent ≠ -1#_) (positive : 0 < (1#1 ++ mantissa).toNat) :
    UnpackedFloat.pack Format.binary64
        (.finite sign (1#1 ++ mantissa).toNat ((exponent.toNat : Int) - (1023 + 52)) positive) =
      packComponents Format.binary64 sign exponent mantissa := by
  have implicit : (1#1 ++ mantissa).toNat = 2 ^ 52 + mantissa.toNat := by
    rw [BitVec.toNat_append, ← Nat.shiftLeft_add_eq_or_of_lt mantissa.isLt]
    simp [Nat.shiftLeft_eq]
  have exponentBound : exponent.toNat + 1 < 2 ^ 11 := by
    have bound := exponent.isLt
    have notLast : exponent.toNat ≠ 2 ^ 11 - 1 := by
      intro equality
      apply isFinite
      apply BitVec.eq_of_toNat_eq
      simpa using equality
    omega
  have logarithm : (1#1 ++ mantissa).toNat.log2 = 52 := by
    rw [implicit, Nat.log2_eq_iff (by omega)]
    have bound := mantissa.isLt
    omega
  have biased : ((exponent.toNat : Int) - (1023 + 52) + Format.binary64.exponentBias +
      Format.binary64.mantissaBitsWithoutImplicit).toNat = exponent.toNat := by
    simp only [Format.exponentBias]
    omega
  unfold UnpackedFloat.pack
  simp only [biased, logarithm]
  rw [if_neg (by omega), if_pos (by decide)]
  congr 1
  · simp
  · rw [implicit]
    apply BitVec.eq_of_toNat_eq
    have bound := mantissa.isLt
    simp only [BitVec.toNat_ofNat]
    omega

theorem pack_subnormal (sign : Sign) {mantissa : BitVec 52} (positive : 0 < mantissa.toNat) :
    UnpackedFloat.pack Format.binary64
        (.finite sign mantissa.toNat ((0 : Int) - (1023 + 52) + 1) positive) =
      packComponents Format.binary64 sign 0#_ mantissa := by
  have logarithm : mantissa.toNat.log2 < 52 :=
    (Nat.log2_lt (by omega)).mpr mantissa.isLt
  have biased : ((0 : Int) - (1023 + 52) + 1 + Format.binary64.exponentBias +
      Format.binary64.mantissaBitsWithoutImplicit).toNat = 1 := by
    simp [Format.exponentBias]
  unfold UnpackedFloat.pack
  simp only [biased]
  rw [if_neg (by decide), if_neg (by simp only [Format.mantissaBits]; omega)]
  simp

theorem pack_unpack {bits : BitVec Format.binary64.numBits}
    (valid : Format.binary64.Valid bits) :
    UnpackedFloat.pack Format.binary64 (UnpackedFloat.unpack Format.binary64 bits) = bits := by
  have whole := packComponents_fields bits
  unfold UnpackedFloat.unpack
  dsimp only
  split
  next allOnes =>
    split
    next noMantissa =>
      rw [allOnes, noMantissa] at whole
      exact whole
    next someMantissa => exact (valid.eq_packedNaN allOnes someMantissa).symm
  next notAllOnes =>
    split
    next noExponent =>
      split
      next noMantissa =>
        rw [noExponent, noMantissa] at whole
        exact whole
      next someMantissa =>
        rw [noExponent] at whole ⊢
        exact (pack_subnormal _ _).trans whole
    next someExponent => exact (pack_normal _ _ notAllOnes _).trans whole

@[simp] theorem ofBits_toBits (x : Float) : Float.ofBits x.toBits = x := by
  obtain ⟨⟨bits, valid⟩⟩ := x
  simp only [Float.ofBits, Float.toBits, Float.Model.ofBits, Float.Model.pack]
  congr
  exact pack_unpack valid

/-- Sign and magnitude determine a double. -/
@[simp] theorem ofMagnitude_magnitude (x : Float) :
    ofMagnitude (isNegative x) (magnitude x) = x := by
  have bound := x.toBits.toNat_lt
  have whole : (if isNegative x then signBit + magnitude x else magnitude x) =
      x.toBits.toNat := by
    by_cases negative : signBit ≤ x.toBits.toNat
    · have sign : isNegative x = true := decide_eq_true negative
      rw [if_pos sign]
      simp only [magnitude, signBit] at negative ⊢
      omega
    · have sign : ¬ isNegative x = true := by simpa [isNegative] using negative
      rw [if_neg sign]
      simp only [magnitude, signBit] at negative ⊢
      omega
  rw [ofMagnitude, whole, UInt64.ofNat_toNat, ofBits_toBits]

/-- There is one NaN: the patterns above infinity all stand for it. -/
theorem eq_nan_of_infinityBits_lt {x : Float} (above : infinityBits < magnitude x) :
    x = nan := by
  have bound := x.toBits.toNat_lt
  simp only [infinityBits, magnitude, leadingBit, signBit] at above
  have allOnes : @unpackExponent Format.binary64 x.toBits.toBitVec = -1#_ := by
    apply BitVec.eq_of_toNat_eq
    simp only [unpackExponent, Nat.reduceAdd, Nat.add_one_sub_one, Nat.reduceSub, BitVec.cast_eq,
      BitVec.extractLsb_toNat, UInt64.toNat_toBitVec, Nat.reducePow, BitVec.reduceNeg,
      BitVec.toNat_ofNat, Nat.mod_succ]
    rw [Nat.shiftRight_eq_div_pow]
    omega
  have someMantissa : @unpackMantissa Format.binary64 x.toBits.toBitVec ≠ 0#_ := by
    intro none
    have noMantissa := congrArg BitVec.toNat none
    simp [unpackMantissa] at noMantissa
    omega
  have bits : x.toBits = 0x7FF8000000000000 := by
    apply UInt64.eq_of_toBitVec_eq
    exact (x.toModel.valid.eq_packedNaN allOnes someMantissa).trans (by decide)
  calc
    x = Float.ofBits x.toBits := (ofBits_toBits x).symm
    _ = nan := by rw [bits]; rfl

theorem parts_eq_nan {x : Float} (isNan : parts x = .nan) : x = nan := by
  simp only [parts] at isNan
  split at isNan
  next above => exact eq_nan_of_infinityBits_lt above
  next => split at isNan <;> cases isNan

theorem parts_eq_infinite {x : Float} {negative : Bool}
    (isInfinite : parts x = .infinite negative) : x = infinity negative := by
  simp only [parts] at isInfinite
  split at isInfinite
  next => cases isInfinite
  next =>
    split at isInfinite
    next equality =>
      cases isInfinite
      rw [infinity, ← equality, ofMagnitude_magnitude]
    next => cases isInfinite

theorem parts_eq_finite {x : Float} {negative : Bool} {mantissa : Nat} {exponent : Int}
    (isFinite : parts x = .finite negative mantissa exponent) :
    magnitude x < infinityBits ∧ negative = isNegative x ∧
      mantissa = mantissaOf (magnitude x) := by
  simp only [parts] at isFinite
  split at isFinite
  next => cases isFinite
  next notAbove =>
    split at isFinite
    next => cases isFinite
    next notInfinite =>
      cases isFinite
      exact ⟨by omega, rfl, rfl⟩

/-! The parts of a pattern up to infinity. -/

/-- The pattern of a sign and a magnitude. -/
def pattern (negative : Bool) (bits : Nat) : UInt64 :=
  UInt64.ofNat (if negative then signBit + bits else bits)

theorem toNat_pattern (negative : Bool) {bits : Nat} (bound : bits ≤ infinityBits) :
    (pattern negative bits).toNat = if negative then signBit + bits else bits := by
  rw [pattern, UInt64.toNat_ofNat', Nat.mod_eq_of_lt]
  simp only [infinityBits, leadingBit, signBit] at *
  split <;> omega

theorem toNat_unpackSign (x : UInt64) :
    (@unpackSign Format.binary64 x.toBitVec).toNat = x.toNat / 2 ^ 63 := by
  have bound := x.toNat_lt
  simp only [unpackSign, Nat.reduceAdd, BitVec.toNat_cast, BitVec.extractLsb_toNat,
    Nat.shiftRight_eq_div_pow, UInt64.toNat_toBitVec]
  omega

theorem toNat_unpackExponent (x : UInt64) :
    (@unpackExponent Format.binary64 x.toBitVec).toNat = x.toNat / 2 ^ 52 % 2 ^ 11 := by
  simp only [unpackExponent, BitVec.toNat_cast, BitVec.extractLsb_toNat,
    Nat.shiftRight_eq_div_pow, UInt64.toNat_toBitVec]

theorem toNat_unpackMantissa (x : UInt64) :
    (@unpackMantissa Format.binary64 x.toBitVec).toNat = x.toNat % 2 ^ 52 := by
  simp only [unpackMantissa, BitVec.toNat_cast, BitVec.extractLsb_toNat,
    Nat.shiftRight_eq_div_pow, UInt64.toNat_toBitVec]
  simp

/-- No magnitude up to infinity is a NaN. -/
theorem unpackMantissa_of_allOnes (negative : Bool) {bits : Nat} (bound : bits ≤ infinityBits)
    (allOnes : @unpackExponent Format.binary64 (pattern negative bits).toBitVec = -1#_) :
    @unpackMantissa Format.binary64 (pattern negative bits).toBitVec = 0#_ := by
  have exponent := toNat_unpackExponent (pattern negative bits)
  rw [allOnes, toNat_pattern negative bound] at exponent
  apply BitVec.eq_of_toNat_eq
  rw [toNat_unpackMantissa, toNat_pattern negative bound]
  simp only [infinityBits, leadingBit, signBit] at bound exponent ⊢
  simp at exponent ⊢
  split at exponent <;> simp_all <;> omega

theorem valid_pattern (negative : Bool) {bits : Nat} (bound : bits ≤ infinityBits) :
    Format.binary64.Valid (pattern negative bits).toBitVec where
  eq_packedNaN allOnes someMantissa :=
    absurd (unpackMantissa_of_allOnes negative bound allOnes) someMantissa

theorem sign_pattern (negative : Bool) {bits : Nat} (bound : bits ≤ infinityBits) :
    Sign.ofBitVec (@unpackSign Format.binary64 (pattern negative bits).toBitVec) =
      if negative then .negative else .positive := by
  have sign : @unpackSign Format.binary64 (pattern negative bits).toBitVec =
      if negative then 1#1 else 0#1 := by
    apply BitVec.eq_of_toNat_eq
    rw [toNat_unpackSign, toNat_pattern _ bound]
    simp only [infinityBits, leadingBit, signBit] at bound ⊢
    cases negative <;> simp <;> omega
  rw [sign]
  cases negative <;> rfl

theorem unpack_pattern_not (negative : Bool) {bits : Nat} (bound : bits ≤ infinityBits) :
    UnpackedFloat.unpack Format.binary64 (pattern (!negative) bits).toBitVec =
      (UnpackedFloat.unpack Format.binary64 (pattern negative bits).toBitVec).neg := by
  have exponent : @unpackExponent Format.binary64 (pattern (!negative) bits).toBitVec =
      @unpackExponent Format.binary64 (pattern negative bits).toBitVec := by
    apply BitVec.eq_of_toNat_eq
    rw [toNat_unpackExponent, toNat_unpackExponent, toNat_pattern _ bound, toNat_pattern _ bound]
    cases negative <;> simp [signBit] <;> omega
  have mantissa : @unpackMantissa Format.binary64 (pattern (!negative) bits).toBitVec =
      @unpackMantissa Format.binary64 (pattern negative bits).toBitVec := by
    apply BitVec.eq_of_toNat_eq
    rw [toNat_unpackMantissa, toNat_unpackMantissa, toNat_pattern _ bound, toNat_pattern _ bound]
    cases negative <;> simp [signBit] <;> omega
  have sign : Sign.ofBitVec (@unpackSign Format.binary64 (pattern (!negative) bits).toBitVec) =
      -Sign.ofBitVec (@unpackSign Format.binary64 (pattern negative bits).toBitVec) := by
    rw [sign_pattern _ bound, sign_pattern _ bound]
    cases negative <;> rfl
  have finite := unpackMantissa_of_allOnes negative bound
  unfold UnpackedFloat.unpack
  simp only [exponent, mantissa, sign]
  split_ifs <;> simp_all [UnpackedFloat.neg]

theorem unpack_ofMagnitude (negative : Bool) {bits : Nat} (bound : bits ≤ infinityBits) :
    (ofMagnitude negative bits).toModel.unpack =
      UnpackedFloat.unpack Format.binary64 (pattern negative bits).toBitVec := by
  simp only [ofMagnitude, Float.ofBits, Float.Model.ofBits, Float.Model.unpack, Float.Model.pack]
  exact congrArg _ (pack_unpack (valid_pattern negative bound))

theorem isNaN_ofMagnitude (negative : Bool) {bits : Nat} (bound : bits ≤ infinityBits) :
    (ofMagnitude negative bits).isNaN = false := by
  have finite := unpackMantissa_of_allOnes negative bound
  rw [Float.isNaN, Float.Model.isNaN, unpack_ofMagnitude negative bound]
  unfold UnpackedFloat.unpack
  simp only
  split_ifs <;> simp_all [UnpackedFloat.isNaN]

/-- A number up to infinity is negated by its sign. -/
theorem neg_ofMagnitude (negative : Bool) {bits : Nat} (bound : bits ≤ infinityBits) :
    -ofMagnitude negative bits = ofMagnitude (!negative) bits := by
  change (⟨Float.Model.pack (ofMagnitude negative bits).toModel.unpack.neg⟩ : Float) =
    ⟨Float.Model.pack (UnpackedFloat.unpack Format.binary64 (pattern (!negative) bits).toBitVec)⟩
  rw [unpack_ofMagnitude negative bound, unpack_pattern_not negative bound]

theorem neg_nan : -nan = nan := rfl

theorem isNaN_nan : nan.isNaN = true := rfl

end Cairn.Number
