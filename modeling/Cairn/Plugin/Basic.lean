import Cairn.Routine

set_option autoImplicit false

/-!
Plugins: named tables of functions with an optional prelude, a source text that runs once the
functions are registered, so that a plugin can define part of itself in the language.
-/

namespace Cairn

/-- A function of a plugin, with its optional operator. -/
structure Definition where
  symbol? : Option String := none
  description? : Option String := none
  body : Routine Unit

structure Plugin where
  name : String
  description? : Option String := none
  functions : Table Definition
  prelude? : Option String := none

namespace Plugin

/-- The number a name spells, if it is a whole number in its plain form and a possible index. -/
def index? (name : String) : Option Nat :=
  let digits := name.toList
  let n := Number.natOfDigits digits
  if digits.all Char.isDigit ∧ Nat.toDigits 10 n = digits ∧ n < 0xFFFFFFFF then some n else none

/-- The order in which the entries of a record are taken: names that are indices first, by their
number, then the others as written. A repeated name keeps its first place and its last entry. -/
def enumerate {α : Type 1} (entries : List (String × α)) : List (String × α) :=
  let all := (Table.ofList entries).entries
  let numbered := all.filter fun e => (index? e.1).isSome
  let named := all.filter fun e => (index? e.1).isNone
  numbered.mergeSort (fun a b => (index? a.1).getD 0 ≤ (index? b.1).getD 0) ++ named

/-- The one name that a record of functions cannot hold. -/
def reservedName : String := "__proto__"

/-- The table of functions written as a list of entries. -/
def tableOf (entries : List (String × Definition)) : Table Definition :=
  ⟨enumerate (entries.filter (·.1 ≠ reservedName))⟩

def addAll : List (String × Definition) → Routine Unit
  | [] => return ()
  | (name, d) :: rest => do
    Routine.addFunction d.symbol? name d.body
    addAll rest

/-- Registers every function of a plugin, then runs its prelude. -/
def install (p : Plugin) : Routine Unit := do
  addAll p.functions.entries
  if let some source := p.prelude? then
    if source ≠ "" then
      Routine.run source
  let count := toString p.functions.entries.length
  Routine.trace ("Loaded plugin \"" ++ p.name ++ "\" (" ++ count ++ " functions)")

/-- Descriptions of functions with those of one more plugin; empty ones do not count. -/
def describe (descriptions : Table String) (p : Plugin) : Table String :=
  p.functions.entries.foldl (fun t (name, d) =>
    match d.description? with
    | some text => if text = "" then t else t.insert name text
    | none => t) descriptions

/-- The descriptions that plugins give, later ones over earlier ones. -/
def descriptions (plugins : List Plugin) : Table String := plugins.foldl describe .empty

end Plugin

end Cairn
