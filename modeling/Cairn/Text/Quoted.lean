set_option autoImplicit false

/-!
Texts in double quotes. Quotes and backslashes are escaped by a backslash, control characters
by their short form where they have one and by four hexadecimal digits otherwise; every other
character stands for itself. So a quoted text holds no raw control character.
-/

namespace Cairn.Text

/-- The last four hexadecimal digits of a number. -/
def hex4 (n : Nat) : List Char :=
  [n / 4096 % 16, n / 256 % 16, n / 16 % 16, n % 16].map Nat.digitChar

def escape (c : Char) : List Char :=
  if c = '"' then ['\\', '"']
  else if c = '\\' then ['\\', '\\']
  else if c = '\n' then ['\\', 'n']
  else if c = '\r' then ['\\', 'r']
  else if c = '\t' then ['\\', 't']
  else if c = '\x08' then ['\\', 'b']
  else if c = '\x0c' then ['\\', 'f']
  else if c.toNat < 32 then '\\' :: 'u' :: hex4 c.toNat
  else [c]

def quoted (s : String) : String :=
  String.ofList ('"' :: s.toList.flatMap escape ++ ['"'])

end Cairn.Text
