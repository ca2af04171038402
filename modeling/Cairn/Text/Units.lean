set_option autoImplicit false

/-!
Text measured and ordered by its 16-bit units: a character outside the basic plane counts as
the two halves of its surrogate pair.
-/

namespace Cairn.Text

/-- The 16-bit units of a character. -/
def units (c : Char) : List Nat :=
  let n := c.toNat
  if n < 0x10000 then [n]
  else [0xD800 + (n - 0x10000) / 0x400, 0xDC00 + (n - 0x10000) % 0x400]

def unitsOf (s : String) : List Nat := s.toList.flatMap units

/-- The width of a text in units. -/
def width (s : String) : Nat := (unitsOf s).length

/-- The longest beginning of a text that takes at most `n` units. -/
def takeUnits : Nat → List Char → List Char
  | _, [] => []
  | n, c :: rest =>
    if (units c).length ≤ n then c :: takeUnits (n - (units c).length) rest else []

/-- A text without the characters that start in its first `n` units. -/
def dropUnits : Nat → List Char → List Char
  | _, [] => []
  | 0, cs => cs
  | n + 1, c :: rest => dropUnits (n + 1 - (units c).length) rest

/-- The order of dictionaries, the shorter first when one begins the other. -/
def unitsLe : List Nat → List Nat → Bool
  | [], _ => true
  | _ :: _, [] => false
  | a :: s, b :: t => a < b || a == b && unitsLe s t

/-- The order of two texts by their units. -/
def le (s t : String) : Bool := unitsLe (unitsOf s) (unitsOf t)

def sort (names : List String) : List String := names.mergeSort le

def blanks (n : Nat) : String := String.ofList (List.replicate n ' ')

/-- Blanks in front, up to `n` units. -/
def padLeft (s : String) (n : Nat) : String := blanks (n - width s) ++ s

/-- Blanks behind, up to `n` units. -/
def padRight (s : String) (n : Nat) : String := s ++ blanks (n - width s)

end Cairn.Text
