import Cairn.Number.Binary

set_option autoImplicit false

/-!
The operations on numbers that core doubles lack: the exact remainder, and the whole numbers that
stack positions and repeat counts ask for.
-/

namespace Cairn.Number

/-- The remainder of a division rounded toward zero, computed exactly; it takes the sign of the
dividend. -/
def remainder (x y : Float) : Float :=
  match parts x, parts y with
  | .finite negative m e, .finite _ n f =>
    if n = 0 then nan
    else
      let common := min e f
      let num := m * raise 2 (e - common)
      let den := n * raise 2 (f - common)
      ofScaled negative (num % den) common
  | .finite .., .infinite _ => x
  | _, _ => nan

/-- The whole part of the magnitude of a number; zero for what is not finite. -/
def wholePart (x : Float) : Nat :=
  match parts x with
  | .finite _ m e => m * raise 2 e / lower 2 e
  | _ => 0

/-- The natural number that `x` is, both zeros being zero. -/
def toNat? (x : Float) : Option Nat :=
  match parts x with
  | .finite negative m e =>
    if m * raise 2 e % lower 2 e ≠ 0 ∨ negative ∧ m ≠ 0 then none else some (wholePart x)
  | _ => none

/-- How often a loop counting up in doubles runs. -/
inductive Repetitions where
  | times (n : Nat)
  | endless
  deriving DecidableEq

/-- The rounds of a counter that starts at zero and stays below the whole part of `x`. Past
`2 ^ 53` adding one no longer moves the counter. -/
def repetitions (x : Float) : Repetitions :=
  match parts x with
  | .nan => .times 0
  | .infinite negative => if negative then .times 0 else .endless
  | .finite negative _ _ =>
    if negative then .times 0
    else if 2 * leadingBit < wholePart x then .endless
    else .times (wholePart x)

end Cairn.Number
