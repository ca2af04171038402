import Cairn.Number.Decimal

set_option autoImplicit false

/-!
The decimal a finite double is written as: the fewest digits that read back to the double, and
of those the nearest to it, an exact tie going to the even last digit.
-/

namespace Cairn.Number

/-- The `k` with `10 ^ (k - 1) ≤ num / den < 10 ^ k`, for positive `num` and `den`. -/
def decimalExponent (num den : Nat) : Int :=
  if den ≤ num then decimalLength (num / den)
  else 1 - (decimalLength ((den - 1) / num) : Int)

/-- The same decimal without trailing zeros in its coefficient. -/
def Decimal.normal (d : Decimal) : Decimal :=
  go (decimalLength d.digits) d
where
  /-- Drops at most `fuel` zeros. -/
  go : (fuel : Nat) → Decimal → Decimal
    | 0, d => d
    | fuel + 1, d =>
      if d.digits % 10 = 0 ∧ d.digits ≠ 0 then go fuel ⟨d.digits / 10, d.exponent + 1⟩ else d

/-- Of the two neighbours of `num / den` among the multiples of `10 ^ exponent`, the nearest that
reads back to `bits`, if one does. -/
def readingBack? (bits num den : Nat) (exponent : Int) : Option Decimal :=
  let num' := num * lower 10 exponent
  let den' := den * raise 10 exponent
  let below : Decimal := ⟨num' / den', exponent⟩
  let above : Decimal := ⟨num' / den' + 1, exponent⟩
  let rest := 2 * (num' % den')
  match below.nearest == bits, above.nearest == bits with
  | true, false => some below
  | false, true => some above
  | true, true =>
    if rest < den' ∨ rest = den' ∧ below.digits % 2 = 0 then some below else some above
  | false, false => none

/-- All the digits of `mantissa * 2 ^ exponent`. -/
def exactDecimal (mantissa : Nat) (exponent : Int) : Decimal :=
  ⟨mantissa * raise 2 exponent * lower 5 exponent, min exponent 0⟩

/-- The shortest decimal that reads back to the finite pattern `bits`. Seventeen digits are
enough for every double; the exact expansion stands behind them. -/
def shortest (bits : Nat) : Decimal :=
  let m := mantissaOf bits
  let e := exponentOf bits
  let num := m * raise 2 e
  let den := lower 2 e
  let top := decimalExponent num den
  let hit := (List.range 17).findSome? fun n => readingBack? bits num den (top - (n + 1 : Nat))
  (hit.getD (exactDecimal m e)).normal

end Cairn.Number
