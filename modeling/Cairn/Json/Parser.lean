import Cairn.Json.Basic
import Cairn.Number.Numeral

set_option autoImplicit false

/-!
Reading JSON documents. The grammar is the strict one: only spaces, tabs, line feeds and carriage
returns between the parts, no leading zeros, no raw control character in a string, and nothing
after the document. Each reader takes what it reads off the front and returns the rest; a reader
that fails returns what is left where it failed.
-/

namespace Cairn.Json

/-- Why a text is no document. -/
inductive Problem where
  /-- A character, or the end, that starts no value or breaks off a word. -/
  | unexpected
  | noName
  | noNextName
  | noColon
  | noItemEnd
  | noMemberEnd
  | openString
  | controlCharacter
  | badUnit
  | badEscape
  | noNumber
  | noFraction
  | noExponent
  | leftover
  deriving DecidableEq

/-- A problem and the text from where it shows. -/
structure ParseError where
  problem : Problem
  rest : List Char
  deriving DecidableEq

def fail {α : Type} (problem : Problem) (rest : List Char) : Except ParseError α :=
  .error ⟨problem, rest⟩

def isSpace (c : Char) : Bool := c = ' ' || c = '\t' || c = '\n' || c = '\r'

def skipSpace (cs : List Char) : List Char := cs.dropWhile isSpace

def hexValue? (c : Char) : Option Nat :=
  if c.isDigit then some (c.toNat - '0'.toNat)
  else if 'a' ≤ c ∧ c ≤ 'f' then some (c.toNat - 'a'.toNat + 10)
  else if 'A' ≤ c ∧ c ≤ 'F' then some (c.toNat - 'A'.toNat + 10)
  else none

/-- A number written with a given count of hexadecimal digits, behind those of `value`. -/
def hexNumber : (count value : Nat) → List Char → Except ParseError (Nat × List Char)
  | 0, value, cs => .ok (value, cs)
  | _ + 1, _, [] => fail .badUnit []
  | count + 1, value, c :: rest =>
    match hexValue? c with
    | some digit => hexNumber count (16 * value + digit) rest
    | none => fail .badUnit (c :: rest)

/-- A unit written as four hexadecimal digits. -/
def unit (cs : List Char) : Except ParseError (Nat × List Char) := hexNumber 4 0 cs

/-- The character of a unit, or of the pair it opens when its other half follows. A half that
stands alone is no character and reads as the replacement character. -/
def joinUnits (first : Nat) (rest : List Char) : Char × List Char :=
  if 0xD800 ≤ first ∧ first < 0xE000 then
    let replaced := (Char.ofNat 0xFFFD, rest)
    match rest with
    | '\\' :: 'u' :: more =>
      match unit more with
      | .ok (second, rest') =>
        if first < 0xDC00 ∧ 0xDC00 ≤ second ∧ second < 0xE000 then
          (Char.ofNat (0x10000 + (first - 0xD800) * 0x400 + (second - 0xDC00)), rest')
        else replaced
      | .error _ => replaced
    | _ => replaced
  else (Char.ofNat first, rest)

/-- The character after a backslash. -/
def escaped : List Char → Except ParseError (Char × List Char)
  | '"' :: rest => .ok ('"', rest)
  | '\\' :: rest => .ok ('\\', rest)
  | '/' :: rest => .ok ('/', rest)
  | 'b' :: rest => .ok ('\x08', rest)
  | 'f' :: rest => .ok ('\x0c', rest)
  | 'n' :: rest => .ok ('\n', rest)
  | 'r' :: rest => .ok ('\r', rest)
  | 't' :: rest => .ok ('\t', rest)
  | 'u' :: rest => do
    let (first, rest) ← unit rest
    return joinUnits first rest
  | cs => fail .badEscape cs

/-- The characters of a string up to its closing quote; `fuel` bounds their number. -/
def chars : (fuel : Nat) → List Char → Except ParseError (List Char × List Char)
  | 0, cs => fail .openString cs
  | _ + 1, [] => fail .openString []
  | fuel + 1, c :: rest =>
    if c = '"' then .ok ([], rest)
    else if c.toNat < 32 then fail .controlCharacter (c :: rest)
    else if c = '\\' then do
      let (d, rest) ← escaped rest
      let (ds, rest) ← chars fuel rest
      return (d :: ds, rest)
    else do
      let (ds, rest) ← chars fuel rest
      return (c :: ds, rest)

/-- A string from behind its opening quote. -/
def text (cs : List Char) : Except ParseError (String × List Char) := do
  let (ds, rest) ← chars (cs.length + 1) cs
  return (String.ofList ds, rest)

/-- One or more digits. -/
def digits (problem : Problem) (cs : List Char) : Except ParseError (List Char × List Char) :=
  match cs.takeWhile Char.isDigit with
  | [] => fail problem cs
  | ds => .ok (ds, cs.dropWhile Char.isDigit)

/-- The digits of a whole number: a lone zero or no leading zero. -/
def whole : List Char → Except ParseError (List Char × List Char)
  | '0' :: rest =>
    if (rest.head?.map Char.isDigit).getD false then fail .unexpected rest else .ok (['0'], rest)
  | cs => digits .noNumber cs

def fraction : List Char → Except ParseError (List Char × List Char)
  | '.' :: rest => digits .noFraction rest
  | rest => .ok ([], rest)

def exponent : List Char → Except ParseError (Int × List Char)
  | [] => .ok (0, [])
  | c :: rest =>
    if c = 'e' ∨ c = 'E' then do
      let (negative, rest) := Number.splitSign rest
      let (ds, rest) ← digits .noExponent rest
      let n : Int := Number.natOfDigits ds
      return (if negative then -n else n, rest)
    else .ok (0, c :: rest)

def unsigned (negative : Bool) (cs : List Char) : Except ParseError (Json × List Char) := do
  let (whole, rest) ← whole cs
  let (fraction, rest) ← fraction rest
  let (exponent, rest) ← exponent rest
  let decimal : Number.Decimal :=
    ⟨Number.natOfDigits (whole ++ fraction), exponent - fraction.length⟩
  return (.number (decimal.toFloat negative), rest)

/-- A number, with its sign in front. -/
def signed : List Char → Except ParseError (Json × List Char)
  | '-' :: rest => unsigned true rest
  | cs => unsigned false cs

/-- What follows a word, which has to stand at the front. -/
def word : List Char → List Char → Except ParseError (List Char)
  | [], cs => .ok cs
  | _ :: _, [] => fail .unexpected []
  | d :: ds, c :: cs => if c = d then word ds cs else fail .unexpected (c :: cs)

mutual

/-- A value and what follows it; `fuel` bounds the steps. -/
def value : (fuel : Nat) → List Char → Except ParseError (Json × List Char)
  | 0, cs => fail .unexpected cs
  | fuel + 1, cs =>
    match skipSpace cs with
    | [] => fail .unexpected []
    | '"' :: rest => do
      let (s, rest) ← text rest
      return (.string s, rest)
    | '[' :: rest =>
      match skipSpace rest with
      | ']' :: rest => .ok (.array [], rest)
      | _ => do
        let (items, rest) ← items fuel rest
        return (.array items, rest)
    | '\x7b' :: rest =>
      match skipSpace rest with
      | '\x7d' :: rest => .ok (.object [], rest)
      | _ => do
        let (members, rest) ← members fuel .noName rest
        return (.object members, rest)
    | c :: rest =>
      if c = 'n' then return (.null, ← word ['u', 'l', 'l'] rest)
      else if c = 't' then return (.boolean true, ← word ['r', 'u', 'e'] rest)
      else if c = 'f' then return (.boolean false, ← word ['a', 'l', 's', 'e'] rest)
      else if c = '-' ∨ c.isDigit then signed (c :: rest)
      else fail .unexpected (c :: rest)

/-- One or more items up to the closing bracket. -/
def items : (fuel : Nat) → List Char → Except ParseError (List Json × List Char)
  | 0, cs => fail .unexpected cs
  | fuel + 1, cs => do
    let (item, rest) ← value fuel cs
    match skipSpace rest with
    | ',' :: rest =>
      let (items, rest) ← items fuel rest
      return (item :: items, rest)
    | ']' :: rest => return ([item], rest)
    | rest => fail .noItemEnd rest

/-- One or more members up to the closing brace; without a name the first one fails by the given
problem. -/
def members : (fuel : Nat) → Problem → List Char →
    Except ParseError (List (String × Json) × List Char)
  | 0, _, cs => fail .unexpected cs
  | fuel + 1, problem, cs =>
    match skipSpace cs with
    | '"' :: rest => do
      let (name, rest) ← text rest
      match skipSpace rest with
      | ':' :: rest =>
        let (value, rest) ← value fuel rest
        match skipSpace rest with
        | ',' :: rest =>
          let (members, rest) ← members fuel .noNextName rest
          return ((name, value) :: members, rest)
        | '\x7d' :: rest => return ([(name, value)], rest)
        | rest => fail .noMemberEnd rest
      | rest => fail .noColon rest
    | rest => fail problem rest

end

/-- The document a text holds; it has to hold exactly one. -/
def parse (text : String) : Except ParseError Json := do
  let cs := text.toList
  let (value, rest) ← value (2 * cs.length + 2) cs
  match skipSpace rest with
  | [] => return value
  | rest => fail .leftover rest

def parse? (text : String) : Option Json := (parse text).toOption

theorem parse?_eq_some_iff {text : String} {j : Json} :
    parse? text = some j ↔ parse text = .ok j := by
  unfold parse?
  cases parse text <;> simp [Except.toOption]

end Cairn.Json
