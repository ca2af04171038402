import Cairn.Number.Text
import Cairn.Text.Quoted
import Cairn.Value.Basic

set_option autoImplicit false

/-!
The texts of a value: its source, which reads back to the value; its rendering in messages and
on the stack; and its display, which is the rendering with strings left bare.
-/

namespace Cairn

/-- Source for a number. What a bare numeral cannot spell, a sign, an exponent or a word, stands
in parentheses. -/
def Number.source (x : Float) : String :=
  let text := exactText x
  if text.toList.all (fun c => c.isDigit || c = '.') then text else "(" ++ text ++ ")"

namespace Value

mutual

def source : Value → String
  | .string s => "\"" ++ s ++ "\""
  | .number x => Number.source x
  | .function name => "[" ++ name ++ "]"
  | .block body => "\x7b" ++ " ".intercalate (sources body) ++ "\x7d"
  | .operator symbol => symbol
  | .boolean b => if b then "T" else "F"

def sources : List Value → List String
  | [] => []
  | v :: rest => source v :: sources rest

end

def render : Value → String
  | .string s => Text.quoted s
  | .number x => Number.text x
  | .function name => "<fn " ++ name ++ ">"
  | .block body => "<mac " ++ source (.block body) ++ ">"
  | .operator symbol => "<sym '" ++ symbol ++ "'>"
  | .boolean b => if b then "(true)" else "(false)"

def display : Value → String
  | .string s => s
  | v => render v

end Value

/-- Values on one line, each as `Value.render` has it. -/
def renderAll (values : List Value) : String := " ".intercalate (values.map Value.render)

end Cairn
