set_option autoImplicit false

/-!
Doubles as exact rationals. A finite double is taken apart into a sign, a whole mantissa and
a power of two; a positive rational is rounded to the pattern of the nearest double, an exact
half going to the even mantissa. Both directions are whole-number arithmetic on the bits.
-/

namespace Cairn.Number

/-- A double taken apart; a finite one is `±mantissa * 2 ^ exponent`. -/
inductive Parts where
  | nan
  | infinite (negative : Bool)
  | finite (negative : Bool) (mantissa : Nat) (exponent : Int)
  deriving DecidableEq

/-- The lowest exponent bit, and the leading bit that normal mantissas leave out: `2 ^ 52`. -/
def leadingBit : Nat := 0x10000000000000

/-- The sign bit: `2 ^ 63`. -/
def signBit : Nat := 0x8000000000000000

/-- The bits below the sign. -/
def magnitude (x : Float) : Nat := x.toBits.toNat % signBit

def isNegative (x : Float) : Bool := signBit ≤ x.toBits.toNat

/-- The pattern of infinity: every finite magnitude lies below it, every NaN above. -/
def infinityBits : Nat := 2047 * leadingBit

def mantissaOf (bits : Nat) : Nat :=
  if bits < leadingBit then bits else leadingBit + bits % leadingBit

def exponentOf (bits : Nat) : Int :=
  if bits < leadingBit then -1074 else (bits / leadingBit : Nat) - 1075

def parts (x : Float) : Parts :=
  let bits := magnitude x
  if infinityBits < bits then .nan
  else if bits = infinityBits then .infinite (isNegative x)
  else .finite (isNegative x) (mantissaOf bits) (exponentOf bits)

def ofMagnitude (negative : Bool) (bits : Nat) : Float :=
  Float.ofBits (UInt64.ofNat (if negative then signBit + bits else bits))

def nan : Float := ofMagnitude false (infinityBits + leadingBit / 2)

def infinity (negative : Bool) : Float := ofMagnitude negative infinityBits

/-- The numerator of `base ^ e`, which is one for a negative `e`. -/
def raise (base : Nat) (e : Int) : Nat := Nat.pow base e.toNat

/-- The denominator of `base ^ e`, which is one unless `e` is negative. -/
def lower (base : Nat) (e : Int) : Nat := Nat.pow base (-e).toNat

/-- The whole number nearest to `num / den`, a half going to the even neighbour. -/
def roundHalfEven (num den : Nat) : Nat :=
  let q := num / den
  let r := num % den
  if 2 * r < den then q
  else if den < 2 * r then q + 1
  else if q % 2 = 0 then q else q + 1

/-- The largest `e` with `2 ^ e ≤ num / den`, for positive `num` and `den`. -/
def floorLog2 (num den : Nat) : Int :=
  let e : Int := (num.log2 : Int) - den.log2
  if den * raise 2 e ≤ num * lower 2 e then e else e - 1

/-- The pattern of the double nearest to `num / den`. Patterns count the doubles in order, so a
mantissa that rounds up past its last value carries into the exponent. -/
def nearest (num den : Nat) : Nat :=
  if num = 0 then 0
  else
    let e := max (floorLog2 num den - 52) (-1074)
    let m := roundHalfEven (num * lower 2 e) (den * raise 2 e)
    min ((e + 1074).toNat * leadingBit + m) infinityBits

/-- The double nearest to `±mantissa * 2 ^ exponent`. -/
def ofScaled (negative : Bool) (mantissa : Nat) (exponent : Int) : Float :=
  ofMagnitude negative (nearest (mantissa * raise 2 exponent) (lower 2 exponent))

end Cairn.Number
