import Cairn.Number.Decimal

set_option autoImplicit false

/-!
The numerals of the language. After its underscores are dropped, a numeral is an optional sign
and then `inf`, `infinity` or `nan` in any case, or a decimal with an optional point and an
optional exponent.
-/

namespace Cairn.Number

def splitSign : List Char → Bool × List Char
  | '-' :: rest => (true, rest)
  | '+' :: rest => (false, rest)
  | rest => (false, rest)

def natOfDigits (digits : List Char) : Nat :=
  digits.foldl (fun n c => 10 * n + (c.toNat - '0'.toNat)) 0

/-- The exponent part at the end of a numeral, zero when there is none. -/
def exponentPart? : List Char → Option Int
  | [] => some 0
  | c :: rest =>
    if c = 'e' ∨ c = 'E' then
      let (negative, digits) := splitSign rest
      if digits ≠ [] ∧ digits.all Char.isDigit then
        let n : Int := natOfDigits digits
        some (if negative then -n else n)
      else none
    else none

/-- The digits after a point, and what follows them. -/
def fractionPart : List Char → List Char × List Char
  | '.' :: rest => (rest.takeWhile Char.isDigit, rest.dropWhile Char.isDigit)
  | rest => ([], rest)

/-- An unsigned decimal: at least one digit, on either side of the point. -/
def decimal? (text : List Char) : Option Decimal := do
  let whole := text.takeWhile Char.isDigit
  let (fraction, rest) := fractionPart (text.dropWhile Char.isDigit)
  guard (whole ≠ [] ∨ fraction ≠ [])
  let exponent ← exponentPart? rest
  return ⟨natOfDigits (whole ++ fraction), exponent - fraction.length⟩

def numeralOfChars? (text : List Char) : Option Float :=
  let (negative, unsigned) := splitSign (text.filter (· ≠ '_'))
  let word := String.ofList (unsigned.map Char.toLower)
  if word = "inf" ∨ word = "infinity" then some (infinity negative)
  else if word = "nan" then some nan
  else (decimal? unsigned).map (Decimal.toFloat negative)

/-- The number a numeral stands for, or nothing for any other text. -/
def numeral? (text : String) : Option Float := numeralOfChars? text.toList

end Cairn.Number
