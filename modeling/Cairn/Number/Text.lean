import Cairn.Number.Shortest

set_option autoImplicit false

/-!
How numbers are written: the shortest digits, positional from `1e-6` up to below `1e21` and with
an exponent outside. Zero is written without its sign.
-/

namespace Cairn.Number

def zeros (n : Nat) : String := String.ofList (List.replicate n '0')

/-- Digits with a point after the first and a signed exponent. -/
def scientific (digits : List Char) (exponent : Int) : String :=
  let sign := if exponent < 0 then "-" else "+"
  let power := sign ++ toString exponent.natAbs
  match digits with
  | [] => "0"
  | [d] => String.ofList [d] ++ "e" ++ power
  | d :: rest => String.ofList (d :: '.' :: rest) ++ "e" ++ power

/-- The layout of a positive decimal; `point` is where the decimal point stands, counted from
before the first digit. -/
def layout (d : Decimal) : String :=
  let digits := Nat.toDigits 10 d.digits
  let point := digits.length + d.exponent
  if 21 < point ∨ point ≤ -6 then scientific digits (point - 1)
  else if point ≤ 0 then "0." ++ zeros (-point).toNat ++ String.ofList digits
  else if 0 ≤ d.exponent then String.ofList digits ++ zeros d.exponent.toNat
  else
    String.ofList (digits.take point.toNat) ++ "." ++ String.ofList (digits.drop point.toNat)

def text (x : Float) : String :=
  match parts x with
  | .nan => "NaN"
  | .infinite negative => if negative then "-Infinity" else "Infinity"
  | .finite negative m _ =>
    if m = 0 then "0"
    else (if negative then "-" else "") ++ layout (shortest (magnitude x))

def isNegativeZero (x : Float) : Bool := isNegative x && magnitude x == 0

def isFinite (x : Float) : Bool := magnitude x < infinityBits

/-- Like `text`, but negative zero keeps its sign, so that equal texts mean the same number. -/
def exactText (x : Float) : String := if isNegativeZero x then "-0" else text x

end Cairn.Number
