set_option autoImplicit false

/-!
Tables from names to entries that remember the order in which names came in. Setting a name
that is present keeps its place; a name that was erased comes in again at the end.
-/

namespace Cairn

universe u

structure Table (α : Type u) where
  entries : List (String × α) := []

namespace Table

variable {α : Type u}

def empty : Table α := ⟨[]⟩

def keys (t : Table α) : List String := t.entries.map (·.1)

def find? (t : Table α) (name : String) : Option α :=
  (t.entries.find? (·.1 = name)).map (·.2)

def contains (t : Table α) (name : String) : Bool := t.entries.any (·.1 = name)

def insert (t : Table α) (name : String) (entry : α) : Table α :=
  if t.contains name then
    ⟨t.entries.map fun e => if e.1 = name then (name, entry) else e⟩
  else ⟨t.entries ++ [(name, entry)]⟩

def erase (t : Table α) (name : String) : Table α := ⟨t.entries.filter (·.1 ≠ name)⟩

def ofList (entries : List (String × α)) : Table α :=
  entries.foldl (fun t e => t.insert e.1 e.2) empty

end Table

end Cairn
