import Cairn.Json.Parser
import Cairn.Text.Units

set_option autoImplicit false

/-!
The wording of what is wrong with a text that is no JSON document. A message gives the place where
the problem shows, in units from the start and as line and column; an unexpected character is shown
with a piece of the text around it.
-/

namespace Cairn.Json

/-- What a problem is called; an unexpected character is worded by `unexpected`. -/
def Problem.title : Problem → String
  | .unexpected => "Unexpected token"
  | .noName => "Expected property name or '\x7d'"
  | .noNextName => "Expected double-quoted property name"
  | .noColon => "Expected ':' after property name"
  | .noItemEnd => "Expected ',' or ']' after array element"
  | .noMemberEnd => "Expected ',' or '\x7d' after property value"
  | .openString => "Unterminated string"
  | .controlCharacter => "Bad control character in string literal"
  | .badUnit => "Bad Unicode escape"
  | .badEscape => "Bad escaped character"
  | .noNumber => "No number after minus sign"
  | .noFraction => "Unterminated fractional number"
  | .noExponent => "Exponent part is missing a number"
  | .leftover => "Unexpected non-whitespace character after"

namespace ParseError

/-- The line and the column behind a text that starts at the given ones. -/
def lineAndColumn (line column : Nat) : List Char → Nat × Nat
  | [] => (line, column)
  | '\r' :: '\n' :: rest => lineAndColumn (line + 1) 1 rest
  | c :: rest =>
    if c = '\r' ∨ c = '\n' then lineAndColumn (line + 1) 1 rest
    else lineAndColumn line (column + (Text.units c).length) rest

/-- The part of a text in front of the problem. -/
def consumed (e : ParseError) (text : String) : List Char :=
  text.toList.take (text.length - e.rest.length)

def position (e : ParseError) (text : String) : Nat :=
  ((e.consumed text).flatMap Text.units).length

def place (e : ParseError) (text : String) : String :=
  let (line, column) := lineAndColumn 1 1 (e.consumed text)
  " JSON at position " ++ toString (e.position text) ++ " (line " ++ toString line
    ++ " column " ++ toString column ++ ")"

/-- How many units around a character are shown. -/
def contextWidth : Nat := 10

/-- The text around a position, in quotes, with dots where it is cut; a short text is shown
whole. -/
def context (text : String) (position : Nat) : String :=
  if Text.width text ≤ 2 * contextWidth then "\"" ++ text ++ "\""
  else
    let start := position - contextWidth
    let shown := Text.takeUnits (position + contextWidth - start) (Text.dropUnits start text.toList)
    (if position < contextWidth then "" else "...") ++ "\"" ++ String.ofList shown ++ "\""
      ++ (if position + contextWidth < Text.width text then "..." else "")

/-- Texts that stand for a missing document and are shown as such. -/
def placeholders : List String := ["[object Object]", "NaN", "Infinity", "undefined"]

/-- The wording for a character, or the end, that starts no value or breaks off a word. -/
def unexpected (e : ParseError) (text : String) : String :=
  match e.rest with
  | [] => "Unexpected end of JSON input"
  | c :: _ =>
    if c = '"' then "Unexpected string in" ++ e.place text
    else if c = '-' ∨ c.isDigit then "Unexpected number in" ++ e.place text
    else if placeholders.contains text then "\"" ++ text ++ "\" is not valid JSON"
    else "Unexpected token '" ++ String.singleton c ++ "', " ++ context text (e.position text)
      ++ " is not valid JSON"

/-- The message for a text in which the problem was found. -/
def message (e : ParseError) (text : String) : String :=
  match e.problem with
  | .unexpected => e.unexpected text
  | .leftover => e.problem.title ++ e.place text
  | problem => problem.title ++ " in" ++ e.place text

end ParseError

end Cairn.Json
