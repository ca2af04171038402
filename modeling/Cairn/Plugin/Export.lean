import Cairn.Json.Basic
import Cairn.Plugin.Basic

set_option autoImplicit false

/-!
What a plugin file hands over: a tree of plain data with routines in it. Taking a member can fail.
Only some trees are plugins, and the whole tree is checked before anything of it is used.
-/

namespace Cairn

inductive Export : Type 1 where
  | undefined
  | null
  | boolean (value : Bool)
  | number (value : Float)
  | string (text : String)
  | array (items : List Export)
  /-- A record, with what taking each member gives. -/
  | record (members : List (String × Except Fault Export))
  /-- A record that takes the members it lacks from a base. -/
  | derived (base : Export) (members : List (String × Except Fault Export))
  /-- A routine is no record; its members, its name among them, only count where it is a base. -/
  | routine (body : Routine Unit) (members : List (String × Except Fault Export))

namespace Export

mutual

/-- A document as plain data. -/
def ofJson : Json → Export
  | .null => .null
  | .boolean b => .boolean b
  | .number x => .number x
  | .string s => .string s
  | .array items => .array (ofItems items)
  | .object members => .record (ofMembers members)

def ofItems : List Json → List Export
  | [] => []
  | j :: rest => ofJson j :: ofItems rest

def ofMembers : List (String × Json) → List (String × Except Fault Export)
  | [] => []
  | (name, j) :: rest => (name, .ok (ofJson j)) :: ofMembers rest

end

/-- The members of a record or an array in the order they are taken, an array's under their
positions; nothing else has entries. Those of a base do not count. -/
def members? : Export → Option (List (String × Except Fault Export))
  | .record members | .derived _ members => some (Plugin.enumerate members)
  | .array items => some (items.zipIdx.map fun (item, i) => (toString i, .ok item))
  | _ => none

def isRecord (x : Export) : Bool := x.members?.isSome

/-- A member that a tree has itself. -/
def own? (x : Export) (name : String) : Option (Except Fault Export) := do
  let members ← match x with
    | .routine _ members => some (Plugin.enumerate members)
    | x => x.members?
  return (← members.find? (·.1 = name)).2

/-- The member of a given name, from the tree itself or else from its base. -/
def member? (x : Export) (name : String) : Option (Except Fault Export) :=
  match x with
  | .derived base members => ((Export.derived base members).own? name).or (base.member? name)
  | x => x.own? name

/-- What taking a member gives; there is nothing defined where there is none. -/
def get (x : Export) (name : String) : Except Fault Export := (x.member? name).getD (.ok .undefined)

/-- Whether a chain of bases ends in nothing rather than in a plain record. -/
def isDetached : Export → Bool
  | .null => true
  | .derived base _ => base.isDetached
  | _ => false

/-- The tree as a base: null stands for none at all, and a plain value cannot be one. -/
def isBase : Export → Bool
  | .null | .array _ | .record _ | .derived .. | .routine .. => true
  | .undefined | .boolean _ | .number _ | .string _ => false

/-- A record with one more member. Under the reserved name a base is set instead, except on a
record without any base. -/
def assign (x : Export) : String × Export → Export
  | (name, value) =>
    if name = Plugin.reservedName ∧ ¬ x.isDetached then
      match x with
      | .record members | .derived _ members =>
        if value.isBase then .derived value members else x
      | x => x
    else
      match x with
      | .record members => .record (members ++ [(name, .ok value)])
      | .derived base members => .derived base (members ++ [(name, .ok value)])
      | x => x

/-- The record that assigning members in turn builds. -/
def assemble (members : List (String × Export)) : Export := members.foldl assign (.record [])

def text? : Export → Option String
  | .string s => some s
  | _ => none

/-- The alias that a value gives: a string, or none where nothing is defined. -/
def symbol? : Export → Option (Option String)
  | .undefined => some none
  | .string s => some (some s)
  | _ => none

/-- A function entry: a record with a routine under `fn` and, if it has an alias at all, a string
for it. A description that is no string does not count. -/
def definition? (x : Export) : Except Fault (Option Definition) :=
  if x.isRecord then do
    let body ← x.get "fn"
    let symbol ← x.get "alias"
    match body, symbol.symbol? with
    | .routine body _, some symbol? =>
      let description ← x.get "description"
      return some ⟨symbol?, description.text?, body⟩
    | _, _ => return none
  else return none

/-- Takes all members of a table, in their order. -/
def takeAll : List (String × Except Fault Export) → Except Fault (List (String × Export))
  | [] => return []
  | (name, member) :: rest => do
    let x ← member
    return (name, x) :: (← takeAll rest)

/-- The function entries of a table, up to the first that is none. -/
def definitions? : List (String × Export) → Except Fault (Option (List (String × Definition)))
  | [] => return some []
  | (name, x) :: rest => do
    match ← x.definition? with
    | some d => return (← definitions? rest).map ((name, d) :: ·)
    | none => return none

/-- A plugin: a record with a name and a record of function entries. An entry under the reserved
name is checked like the others and left out. -/
def plugin? (x : Export) : Except Fault (Option Plugin) :=
  if x.isRecord then do
    let name ← x.get "name"
    let description ← x.get "description"
    let table ← x.get "functions"
    let source ← x.get "prelude"
    match name, table.members? with
    | .string name, some members =>
      let functions ← definitions? (← takeAll members)
      return functions.map fun functions => {
        name
        description? := description.text?
        functions := Plugin.tableOf functions
        prelude? := source.text? }
    | _, _ => return none
  else return none

/-- The tree that stands for the whole: the default member where a record has one. -/
def primary (x : Export) : Except Fault Export :=
  if x.isRecord then (x.member? "default").getD (.ok x) else .ok x

end Export

end Cairn
