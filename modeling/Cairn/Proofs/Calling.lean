import Cairn.Proofs.Inlining
import Cairn.Proofs.UnreadLines

set_option autoImplicit false

/-!
# Calling a function

A function can be called by its operator, by running its name with a word, or from outside. All of
these agree on whether there is an end, on the effect of a success and on the kind of a failure, and
a failure takes the stack back. A function that was defined by a block does what the tokens of the
block do, with the block it had when the call began.
-/

namespace Cairn

/-- Failures with the same cause, or the same failure from outside the language. -/
structure Fault.SameKind (fault fault' : Fault) : Prop where
  cause : fault.cause? = fault'.cause?
  foreign : fault'.cause? = none → fault = fault'

namespace Fault.SameKind

variable {fault fault' fault'' : Fault}

theorem refl (fault : Fault) : SameKind fault fault := ⟨rfl, fun _ => rfl⟩

theorem trans (first : SameKind fault fault') (second : SameKind fault' fault'') :
    SameKind fault fault'' := by
  refine ⟨first.cause.trans second.cause, fun foreign => ?_⟩
  exact (first.foreign (second.cause.trans foreign)).trans (second.foreign foreign)

theorem withToken (token : Option Value) (fault : Fault) :
    SameKind (fault.withToken token) fault :=
  ⟨by cases fault <;> rfl, Machine.withToken_of_cause_none token⟩

theorem bareCause (fault : Fault) : SameKind (Machine.bareCause fault) fault :=
  ⟨by cases fault <;> rfl, Machine.bareCause_of_cause_none⟩

theorem leaving (stack : List Value) (voiced : fault.voiced = fault) :
    SameKind (Machine.leaving stack fault) fault := by
  unfold Machine.leaving
  cases caused : fault.cause? with
  | none => exact voiced.symm ▸ .refl fault
  | some cause => exact ⟨caused.symm, fun foreign => by simp [caused] at foreign⟩

end Fault.SameKind

namespace Machine

open Cairn.Configuration

variable {m before after : Machine} {symbol name : String} {body : Routine Unit} {b : List Value}
  {fault : Fault}

/-- A way to call a function, and what it has pushed and leaves there when the call fails. -/
structure Way where
  call : Nat → Action Unit
  pushed : List Value := []

/-- The call succeeds with the stack, tables and output of a machine. -/
def Way.SucceedsLike (way : Way) (m after : Machine) : Prop :=
  ∃ after', Settles way.call m (.ok ()) after' ∧ after'.Alike after

/-- The call fails with the kind of a failure, and with the tables and the output of a machine. It
leaves the stack that it started on, below what it has pushed. -/
def Way.FailsLike (way : Way) (m : Machine) (fault : Fault) (after : Machine) : Prop :=
  ∃ fault' after', Settles way.call m (.error fault') after' ∧ fault'.SameKind fault ∧
    after'.Alike { after with stack := way.pushed ++ m.stack }

/-- A way that comes to the end that running the function comes to. -/
structure Way.Follows (way : Way) (name : String) (m : Machine) : Prop where
  diverges : Diverges (exec · (.function name)) m → Diverges way.call m
  succeeds : ∀ after, Settles (exec · (.function name)) m (.ok ()) after →
    way.SucceedsLike m after
  fails : ∀ fault after, Settles (exec · (.function name)) m (.error fault) after →
    way.FailsLike m fault after

/-- What a call makes of the failure of a value that it ran. -/
theorem sameKind_leaving {value : Value} (failure : Settles (exec · value) m (.error fault) after)
    (stack : List Value) : (leaving stack (bareCause fault)).SameKind fault := by
  obtain ⟨fuel, ran⟩ := failure
  have raised : (bareCause fault).OfInvocation := (exec_fault ran).bareCause
  exact (Fault.SameKind.leaving stack raised.voiced).trans (.bareCause fault)

theorem takes_runBlock (b : List Value) : Takes (Core.runBlock b) [] (.block b) where
  plain := by simp [Literals]
  runs exec n m := runWith_invoke exec n (.block b) m

/-- Running a function that a block defines comes to the end that its tokens come to. -/
theorem Way.Follows.block {way : Way} (follows : way.Follows name m) (blind : m.Blind)
    (registered : m.functions.find? name = some (Core.runBlock b)) :
    (Diverges (evaluate · b) m → Diverges way.call m) ∧
    (∀ after, Succeeds b m after → way.SucceedsLike m after) ∧
    ∀ fault after, Fails b m fault after → way.FailsLike m fault after := by
  have takes := takes_runBlock b
  refine ⟨fun endless => ?_, fun after success => ?_, fun fault after failure => ?_⟩
  · refine follows.diverges (takes.diverges blind registered fun fuel => ?_)
    cases fuel with
    | zero => rfl
    | succ fuel => exact congrArg (Outcome.mapFault _) (endless fuel)
  · obtain ⟨middle, inner, alike⟩ := takes.succeeds blind registered success.block
    obtain ⟨after', called, alike'⟩ := follows.succeeds middle inner
    exact ⟨after', called, alike'.trans alike⟩
  · obtain ⟨middle, inner, alike⟩ := takes.fails blind registered failure.block
    obtain ⟨fault', after', called, kind, alike'⟩ := follows.fails _ middle inner
    refine ⟨fault', after', called, ?_, alike'.trans ?_⟩
    · exact kind.trans ((sameKind_leaving failure.block after.stack).trans (.withToken none fault))
    · exact ⟨rfl, alike.functions, alike.operators, alike.output⟩

end Machine

end Cairn
