set_option autoImplicit false

/-!
Texts as the host keeps them: lists of 16-bit units, where a half of a surrogate pair may stand
alone. Taken as code points, a pair is one point and a lone half is a point too.
-/

namespace Cairn.Text

def isHighHalf (u : UInt16) : Bool := 0xD800 ≤ u.toNat && u.toNat < 0xDC00

def isLowHalf (u : UInt16) : Bool := 0xDC00 ≤ u.toNat && u.toNat < 0xE000

/-- The code point of a surrogate pair. -/
def joined (high low : UInt16) : Nat :=
  0x10000 + (high.toNat - 0xD800) * 0x400 + (low.toNat - 0xDC00)

/-- The code points of a text. -/
def points : List UInt16 → List Nat
  | [] => []
  | [u] => [u.toNat]
  | u :: v :: rest =>
    if isHighHalf u && isLowHalf v then joined u v :: points rest
    else u.toNat :: points (v :: rest)

end Cairn.Text
