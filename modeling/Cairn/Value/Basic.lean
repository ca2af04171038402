set_option autoImplicit false

/-!
The values of the language. Every token the reader produces and every place on the stack is
one of them.
-/

namespace Cairn

inductive Value where
  | string (text : String)
  | number (value : Float)
  /-- A function's name as data; only invoking it calls the function. -/
  | function (name : String)
  /-- Deferred code. It carries no environment: its names are looked up when it runs. -/
  | block (body : List Value)
  | operator (symbol : String)
  | boolean (value : Bool)
  deriving Inhabited

namespace Value

/-- The name of a value's type, where a block is a macro. -/
def typeName : Value → String
  | .string _ => "string"
  | .number _ => "number"
  | .function _ => "function"
  | .block _ => "macro"
  | .operator _ => "operator"
  | .boolean _ => "boolean"

mutual

/-- Equality as programs see it: numbers compare as numbers, so the two zeros are equal and NaN
differs from everything, and blocks compare token by token. -/
def equal : Value → Value → Bool
  | .string s, .string t => s == t
  | .number x, .number y => x == y
  | .function f, .function g => f == g
  | .block b, .block c => equalBodies b c
  | .operator s, .operator t => s == t
  | .boolean p, .boolean q => p == q
  | _, _ => false

def equalBodies : List Value → List Value → Bool
  | [], [] => true
  | v :: b, w :: c => equal v w && equalBodies b c
  | _, _ => false

end

/-- The truth of a value: the empty string and the two zeros are false, other strings and
numbers are true, and code has none. -/
def truth? : Value → Option Bool
  | .string s => some (s != "")
  | .number x => some (x != 0)
  | .boolean b => some b
  | .function _ | .block _ | .operator _ => none

end Value

end Cairn
