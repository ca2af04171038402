import Cairn.Proofs.Disciplines

set_option autoImplicit false

/-!
# Direct routines

Routines that raise themselves nothing but failures of the language. They may be barred from looking
at the stack as a whole: all core words but two, the depth of the stack and its clearing, look no
deeper into the stack than their arguments tell them to.
-/

namespace Cairn

/-- A failure of the language has a cause. -/
def Fault.OfLanguage (fault : Fault) : Prop := fault.cause?.isSome = true

/-- What a direct routine may ask for; only a `deep` one sees the whole stack. -/
def Request.Permitted (deep : Bool) : Request → Prop
  | .view | .clear => deep = true
  | .assignOperator symbol _ => symbol.length = 1
  | _ => True

/-- The discipline of direct routines, whatever values they handle. -/
def Discipline.direct (deep : Bool) : Discipline where
  Holds _ := True
  Asks := Request.Permitted deep
  Raises := Fault.OfLanguage

instance (deep : Bool) : (Discipline.direct deep).Ample where
  string _ := trivial
  number _ := trivial
  boolean _ := trivial
  pop := trivial
  valueAt _ := trivial
  push _ _ := trivial
  storeAt _ _ _ := trivial
  invoke _ _ := trivial
  emit _ := trivial
  assignOperator _ _ single := single
  language _ := rfl
  registers _ _ := trivial

variable {deep : Bool}

theorem Routine.direct_run (source : String) : (Routine.run source).Obeys (.direct deep) :=
  obeys_ask_bind.mpr ⟨trivial, fun _ _ => obeys_ask.mpr trivial⟩

namespace Core

theorem direct_runBlock (body : List Value) : (runBlock body).Obeys (.direct deep) :=
  obeys_runBlock trivial

/-- The core words are direct, and only two of them are deep. -/
theorem direct_words : ∀ entry ∈ words,
    (deep = false → entry.1 ≠ "size" ∧ entry.1 ≠ "clear") →
      entry.2.body.Obeys (.direct deep) := by
  intro entry member shallow
  have whole : entry.1 = "size" ∨ entry.1 = "clear" → deep = true := by
    intro named
    cases deep with
    | true => rfl
    | false => exact absurd named (not_or.mpr (shallow rfl))
  exact obeys_words entry member (fun named => whole (.inl named)) fun named => whole (.inr named)

end Core

end Cairn
