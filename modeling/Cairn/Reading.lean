import Cairn.Cause
import Cairn.Number.Numeral

set_option autoImplicit false

/-!
Reading source text into tokens. There is no separate lexical pass: whether a character is an
operator depends on the operators known at the moment of reading. A closing brace with no block
open stops the reader, and the end of the text closes whatever is open. Offsets count characters
from the start of the text.
-/

namespace Cairn

/-- What a text reads as: its tokens, and where reading stopped. -/
structure Reading where
  cursor : Nat
  tokens : List Value

/-- Why a text cannot be read, and where. -/
structure ReadError where
  cause : Cause
  offset : Nat

namespace Reading

/-- Characters of a bare numeral. -/
def isNumeric (c : Char) : Bool := c.isDigit || c = '.' || c = '_'

/-- A stretch of tokens: the tokens, the offset after them and the text after them, which is
empty or starts with a closing brace. -/
structure Stretch where
  tokens : List Value
  cursor : Nat
  rest : List Char

def Stretch.prepend (token : Value) (s : Stretch) : Stretch :=
  { s with tokens := token :: s.tokens }

/-- A text up to its closing character: the text inside, the offset `stop` of the closing
character, and the offset and the text after it. Without a closing character it runs to the
end. -/
structure Delimited (α : Type) where
  inside : List α
  stop : Nat
  next : Nat
  rest : List α

def delimited {α : Type} (isCloser : α → Bool) (start : Nat) (cs : List α) : Delimited α :=
  let inside := cs.takeWhile (!isCloser ·)
  let stop := start + inside.length
  match cs.dropWhile (!isCloser ·) with
  | [] => ⟨inside, stop, stop, []⟩
  | _ :: rest => ⟨inside, stop, stop + 1, rest⟩

def number (text : List Char) (offset : Nat) : Except ReadError Value :=
  match Number.numeralOfChars? text with
  | some x => .ok (.number x)
  | none => .error ⟨.badNumber (String.ofList text), offset⟩

/-- Reads tokens from offset `pos` up to a closing brace or the end of the text. Every step takes
at least one character, so `fuel` above the length of the text never runs out. -/
def stretch (isOperator : Char → Bool) : (fuel pos : Nat) → List Char → Except ReadError Stretch
  | 0, pos, cs => .ok ⟨[], pos, cs⟩
  | _ + 1, pos, [] => .ok ⟨[], pos, []⟩
  | fuel + 1, pos, c :: cs =>
    if isNumeric c then do
      let d := cs.takeWhile isNumeric
      let stop := pos + 1 + d.length
      let token ← number (c :: d) stop
      let s ← stretch isOperator fuel stop (cs.dropWhile isNumeric)
      return s.prepend token
    else if c = '(' then do
      let d := delimited (· = ')') (pos + 1) cs
      let token ← number d.inside (d.stop + 1)
      let s ← stretch isOperator fuel d.next d.rest
      return s.prepend token
    else if c = '"' then do
      let d := delimited (· = '"') (pos + 1) cs
      let s ← stretch isOperator fuel d.next d.rest
      return s.prepend (.string (String.ofList d.inside))
    else if c = '[' then do
      let d := delimited (· = ']') (pos + 1) cs
      let s ← stretch isOperator fuel d.next d.rest
      return s.prepend (.function (String.ofList d.inside))
    else if c = '\x7b' then do
      let inner ← stretch isOperator fuel (pos + 1) cs
      let next := if inner.rest.isEmpty then inner.cursor else inner.cursor + 1
      let s ← stretch isOperator fuel next inner.rest.tail
      return s.prepend (.block inner.tokens)
    else if c = '\x7d' then .ok ⟨[], pos, c :: cs⟩
    else if c = ' ' ∨ c = '\t' ∨ c = '\n' then stretch isOperator fuel (pos + 1) cs
    else if c = '\\' then
      let d := delimited (fun x => x = '\n' ∨ x = '\\') (pos + 1) cs
      stretch isOperator fuel d.next d.rest
    else if c = 'T' then do
      let s ← stretch isOperator fuel (pos + 1) cs
      return s.prepend (.boolean true)
    else if c = 'F' then do
      let s ← stretch isOperator fuel (pos + 1) cs
      return s.prepend (.boolean false)
    else if isOperator c then do
      let s ← stretch isOperator fuel (pos + 1) cs
      return s.prepend (.operator (String.singleton c))
    else .error ⟨.unknownSymbol (String.singleton c), pos⟩

/-- Reads a list of characters; `isOperator` tells the characters that are operators. -/
def ofChars (isOperator : Char → Bool) (cs : List Char) : Except ReadError Reading := do
  let s ← stretch isOperator (cs.length + 1) 0 cs
  return ⟨s.cursor, s.tokens⟩

end Reading

/-- Reads a source text; `isOperator` tells the characters that are operators. -/
def read (isOperator : Char → Bool) (source : String) : Except ReadError Reading :=
  Reading.ofChars isOperator source.toList

end Cairn
