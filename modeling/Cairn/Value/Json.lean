import Cairn.Json.Basic
import Cairn.Value.Basic

set_option autoImplicit false

/-!
Values as JSON documents. JSON has no NaN, no infinities and no negative zero: those numbers
are written as strings that spell a numeral.
-/

namespace Cairn.Value

def numberToJson (x : Float) : Json :=
  if Number.isFinite x && !Number.isNegativeZero x then .number x
  else .string (Number.exactText x)

mutual

def toJson : Value → Json
  | .string s => .object [("kind", .string "string"), ("value", .string s)]
  | .number x => .object [("kind", .string "number"), ("value", numberToJson x)]
  | .function name => .object [("kind", .string "function"), ("name", .string name)]
  | .block body => .object [("kind", .string "block"), ("body", .array (listToJson body))]
  | .operator symbol => .object [("kind", .string "operator"), ("symbol", .string symbol)]
  | .boolean b => .object [("kind", .string "boolean"), ("value", .boolean b)]

def listToJson : List Value → List Json
  | [] => []
  | v :: rest => toJson v :: listToJson rest

end

/-- A list of values as one line of JSON. -/
def machineText (values : List Value) : String := (Json.array (listToJson values)).render

end Cairn.Value
