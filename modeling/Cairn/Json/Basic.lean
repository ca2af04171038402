import Cairn.Number.Text
import Cairn.Text.Quoted

set_option autoImplicit false

/-!
JSON documents with their members in the order written, and their one-line text.
-/

namespace Cairn

inductive Json where
  | null
  | boolean (value : Bool)
  | number (value : Float)
  | string (text : String)
  | array (items : List Json)
  | object (members : List (String × Json))
  deriving Inhabited

namespace Json

/-- The member of a given name; of several the last one counts. -/
def get? (j : Json) (name : String) : Option Json :=
  match j with
  | .object members => (members.reverse.find? (·.1 = name)).map (·.2)
  | _ => none

mutual

/-- The document on one line, without blanks. -/
def render : Json → String
  | .null => "null"
  | .boolean b => if b then "true" else "false"
  | .number x => Number.text x
  | .string s => Text.quoted s
  | .array items => "[" ++ ",".intercalate (renderItems items) ++ "]"
  | .object members => "\x7b" ++ ",".intercalate (renderMembers members) ++ "\x7d"

def renderItems : List Json → List String
  | [] => []
  | j :: rest => render j :: renderItems rest

def renderMembers : List (String × Json) → List String
  | [] => []
  | (name, j) :: rest => (Text.quoted name ++ ":" ++ render j) :: renderMembers rest

end

end Json

end Cairn
