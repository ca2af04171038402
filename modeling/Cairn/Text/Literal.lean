import Cairn.Text.Units

set_option autoImplicit false

/-!
Texts shown as literals inside a message. A literal stands in single quotes; a text that holds
one stands in double quotes if it holds none of those, and in backquotes if it holds neither those
nor an opening placeholder. Control characters, backslashes and the surrounding single quote are
escaped. A long text is shown line by line, each line as a literal of its own, and cut.
-/

namespace Cairn.Text

/-- Whether a dollar sign with an opening brace occurs. -/
def hasPlaceholder : List Char → Bool
  | [] => false
  | c :: rest => c = '$' && rest.head? == some '\x7b' || hasPlaceholder rest

def literalQuote (cs : List Char) : Char :=
  if !cs.contains '\x27' then '\x27'
  else if !cs.contains '\x22' then '\x22'
  else if !cs.contains '\x60' && !hasPlaceholder cs then '\x60'
  else '\x27'

/-- The last two hexadecimal digits of a number, in capitals. -/
def hex2 (n : Nat) : List Char := [n / 16 % 16, n % 16].map fun d => (Nat.digitChar d).toUpper

/-- Whether a character is one of the two blocks of control characters, or the delete between. -/
def isControl (c : Char) : Bool := c.toNat < 0x20 || 0x7F ≤ c.toNat && c.toNat ≤ 0x9F

/-- A character inside a literal with the given quote. -/
def escapeIn (quote c : Char) : List Char :=
  if c = '\\' then ['\\', '\\']
  else if c = '\x27' ∧ quote = '\x27' then ['\\', c]
  else if c = '\n' then ['\\', 'n']
  else if c = '\r' then ['\\', 'r']
  else if c = '\t' then ['\\', 't']
  else if c = '\x08' then ['\\', 'b']
  else if c = '\x0c' then ['\\', 'f']
  else if isControl c then '\\' :: 'x' :: hex2 c.toNat
  else [c]

def lineLiteral (cs : List Char) : String :=
  let quote := literalQuote cs
  String.ofList (quote :: cs.flatMap (escapeIn quote) ++ [quote])

/-- The lines of a text, each with the line feed that ends it. -/
def fullLines : List Char → List (List Char)
  | [] => []
  | c :: rest =>
    if c = '\n' then [c] :: fullLines rest
    else
      match fullLines rest with
      | [] => [[c]]
      | line :: more => (c :: line) :: more

/-- The most units of a text that are looked at. -/
def textLimit : Nat := 10000

/-- The most units of a text that is not taken apart into lines. -/
def lineLimit : Nat := 76

/-- The most units of a literal that are shown. -/
def literalLimit : Nat := 128

def literal (s : String) : String :=
  let cs := takeUnits textLimit s.toList
  let lines := if (cs.flatMap units).length ≤ lineLimit then [cs] else fullLines cs
  let whole := " +\n  ".intercalate (lines.map lineLiteral)
  if width whole ≤ literalLimit then whole
  else String.ofList (takeUnits literalLimit whole.toList) ++ "..."

end Cairn.Text
