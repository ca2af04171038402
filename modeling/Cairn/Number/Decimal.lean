import Cairn.Number.Binary

set_option autoImplicit false

/-!
Decimals with a whole coefficient and a power of ten, and the double nearest to one.
-/

namespace Cairn.Number

/-- The non-negative number `digits * 10 ^ exponent`. -/
structure Decimal where
  digits : Nat
  exponent : Int
  deriving DecidableEq

/-- How many decimal digits `n` has; zero has none. -/
def decimalLength (n : Nat) : Nat :=
  go (n.log2 + 1) n
where
  /-- Counts at most `fuel` digits. -/
  go : (fuel n : Nat) → Nat
    | 0, _ => 0
    | fuel + 1, n => if n = 0 then 0 else go fuel (n / 10) + 1

namespace Decimal

/-- The pattern of the double nearest to a decimal. Where a decimal is out of the range of doubles,
its power of ten is not written out. -/
def nearest (d : Decimal) : Nat :=
  let top := d.exponent + decimalLength d.digits
  if d.digits = 0 then 0
  else if 310 < top then infinityBits
  else if top < -330 then 0
  else Number.nearest (d.digits * raise 10 d.exponent) (lower 10 d.exponent)

def toFloat (negative : Bool) (d : Decimal) : Float := ofMagnitude negative d.nearest

end Decimal

end Cairn.Number
