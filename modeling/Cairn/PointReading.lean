import Cairn.Reading
import Cairn.Text.Points

set_option autoImplicit false

/-!
The reader on texts with lone halves of surrogate pairs. It takes the steps of the reader on
characters, but the texts of its tokens are lists of code points: a lone half is a point like any
other, it can be an operator and stand in a string, and it is no part of a numeral.
-/

namespace Cairn.Points

open Cairn.Reading (delimited isNumeric)

inductive Token where
  | string (text : List Nat)
  | number (value : Float)
  | function (name : List Nat)
  | block (body : List Token)
  | operator (symbol : Nat)
  | boolean (value : Bool)

/-- Why a text cannot be read: a numeral that is none, or a point without a meaning. -/
inductive Problem where
  | badNumber (text : List Nat)
  | unknownSymbol (symbol : Nat)

@[ext] structure ReadError where
  problem : Problem
  offset : Nat

/-- A stretch of tokens, the offset after them and the text after them. -/
structure Stretch where
  tokens : List Token
  cursor : Nat
  rest : List Nat

def Stretch.prepend (token : Token) (s : Stretch) : Stretch :=
  { s with tokens := token :: s.tokens }

/-- The character of a point. A lone half has none and is taken for the null character, which means
no more to the reader than it does. -/
def glyph (p : Nat) : Char := Char.ofNat p

def number (text : List Nat) (offset : Nat) : Except ReadError Token :=
  match Number.numeralOfChars? (text.map glyph) with
  | some x => .ok (.number x)
  | none => .error ⟨.badNumber text, offset⟩

/-- Reads tokens from offset `pos` up to a closing brace or the end of the text. -/
def stretch (isOperator : Nat → Bool) : (fuel pos : Nat) → List Nat → Except ReadError Stretch
  | 0, pos, ps => .ok ⟨[], pos, ps⟩
  | _ + 1, pos, [] => .ok ⟨[], pos, []⟩
  | fuel + 1, pos, p :: ps =>
    if isNumeric (glyph p) then do
      let d := ps.takeWhile (isNumeric <| glyph ·)
      let stop := pos + 1 + d.length
      let token ← number (p :: d) stop
      let s ← stretch isOperator fuel stop (ps.dropWhile (isNumeric <| glyph ·))
      return s.prepend token
    else if glyph p = '(' then do
      let d := delimited (glyph · = ')') (pos + 1) ps
      let token ← number d.inside (d.stop + 1)
      let s ← stretch isOperator fuel d.next d.rest
      return s.prepend token
    else if glyph p = '"' then do
      let d := delimited (glyph · = '"') (pos + 1) ps
      let s ← stretch isOperator fuel d.next d.rest
      return s.prepend (.string d.inside)
    else if glyph p = '[' then do
      let d := delimited (glyph · = ']') (pos + 1) ps
      let s ← stretch isOperator fuel d.next d.rest
      return s.prepend (.function d.inside)
    else if glyph p = '\x7b' then do
      let inner ← stretch isOperator fuel (pos + 1) ps
      let next := if inner.rest.isEmpty then inner.cursor else inner.cursor + 1
      let s ← stretch isOperator fuel next inner.rest.tail
      return s.prepend (.block inner.tokens)
    else if glyph p = '\x7d' then .ok ⟨[], pos, p :: ps⟩
    else if glyph p = ' ' ∨ glyph p = '\t' ∨ glyph p = '\n' then
      stretch isOperator fuel (pos + 1) ps
    else if glyph p = '\\' then
      let d := delimited (fun q => glyph q = '\n' ∨ glyph q = '\\') (pos + 1) ps
      stretch isOperator fuel d.next d.rest
    else if glyph p = 'T' then do
      let s ← stretch isOperator fuel (pos + 1) ps
      return s.prepend (.boolean true)
    else if glyph p = 'F' then do
      let s ← stretch isOperator fuel (pos + 1) ps
      return s.prepend (.boolean false)
    else if isOperator p then do
      let s ← stretch isOperator fuel (pos + 1) ps
      return s.prepend (.operator p)
    else .error ⟨.unknownSymbol p, pos⟩

/-- What a text reads as: its tokens, and where reading stopped. -/
@[ext] structure Reading where
  cursor : Nat
  tokens : List Token

def ofPoints (isOperator : Nat → Bool) (ps : List Nat) : Except ReadError Reading := do
  let s ← stretch isOperator (ps.length + 1) 0 ps
  return ⟨s.cursor, s.tokens⟩

/-- Reads a source text; `isOperator` tells the points that are operators. -/
def read (isOperator : Nat → Bool) (source : List UInt16) : Except ReadError Reading :=
  ofPoints isOperator (Text.points source)

end Cairn.Points
