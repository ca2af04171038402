import Cairn.Proofs.Untraced

set_option autoImplicit false

/-!
# Running a block is inlining it

The words that run a block put one call around it and nothing else. On success the tokens of the
block have had the effect they have on their own; a failure takes the stack back to where the word
started, with the literals that were pushed for it, and reports the stack that the block left.
-/

namespace Cairn.Machine

open Cairn.Configuration

variable {m after : Machine} {word : Routine Unit} {literals : List Value} {value : Value}
  {symbol name : String} {fault : Fault}

/-- An operator that stands for a registered function. -/
def Binds (m : Machine) (symbol : String) (word : Routine Unit) : Prop :=
  ∃ name, m.operators.find? symbol = some name ∧ m.functions.find? name = some word

/-- The machine with values pushed, the last one on top. -/
def pushAll (m : Machine) (values : List Value) : Machine :=
  { m with stack := values.reverse ++ m.stack }

theorem trace_pushAll (m : Machine) (values : List Value) (message : String) :
    (m.pushAll values).trace message = (m.trace message).pushAll values := by
  cases tracing : m.tracing <;> simp [trace, pushAll, tracing]

/-- Literals are values that evaluation pushes. -/
def Literals (values : List Value) : Prop := ∀ v ∈ values, ∀ symbol, v ≠ .operator symbol

theorem evaluate_literals (plain : Literals literals) (fuel : Nat) (m : Machine) :
    evaluate fuel literals m = .done () (m.pushAll literals) := by
  induction literals generalizing m with
  | nil => rfl
  | cons v rest inductionHypothesis =>
    have later := inductionHypothesis (fun w member => plain w (List.mem_cons_of_mem v member))
    rw [evaluate, evaluateWith]
    · rw [← evaluate, later]
      simp [pushAll, push]
    · exact plain v List.mem_cons_self

/-- A word that takes the literals pushed for it and runs one value on the stack below them. -/
structure Takes (word : Routine Unit) (literals : List Value) (value : Value) : Prop where
  plain : Literals literals
  runs : ∀ (exec : Value → Action Unit) (n : Nat) (m : Machine),
    runWith exec n word (m.pushAll literals) = invokeWith exec value m

theorem runWith_invoke (exec : Value → Action Unit) (n : Nat) (value : Value) (m : Machine) :
    runWith exec n (Routine.invoke value) m = invokeWith exec value m := by
  rw [Routine.invoke, Routine.ask, runWith_perform, respond]
  cases invokeWith exec value m <;> rfl

theorem takes_exec (literal : ∀ symbol, value ≠ .operator symbol) :
    Takes Core.exec [value] value where
  plain := by simpa [Literals] using literal
  runs exec n m := runWith_invoke exec n value m

/-- How a call ends whose word ran a value. -/
def enclosed (name : String) (before : List Value) : Outcome Unit → Outcome Unit
  | .done _ after => .done () after
  | .failed fault after =>
    .failed (leaving after.stack (bareCause fault)) (after.rollback name before (bareCause fault))
  | .exhausted => .exhausted

theorem Takes.exec_eq (takes : Takes word literals value)
    (registered : m.functions.find? name = some word) (fuel : Nat) :
    exec (fuel + 1) (.function name) (m.pushAll literals) =
      enclosed name (literals.reverse ++ m.stack)
        (exec fuel value (m.trace ("call " ++ name))) := by
  have registered' : (m.pushAll literals).functions.find? name = some word := registered
  rw [exec_function registered', perform, trace_pushAll, takes.runs, invokeWith]
  cases exec fuel value (m.trace ("call " ++ name)) <;> rfl

/-- An action that runs out of fuel, however much it has. -/
def Diverges (action : Nat → Action Unit) (m : Machine) : Prop :=
  ∀ fuel, action fuel m = .exhausted

section Takes

variable (takes : Takes word literals value) (blind : m.Blind)
  (registered : m.functions.find? name = some word)

include takes blind registered

/-- The effect of the value is the effect of the call. -/
theorem Takes.succeeds (success : Settles (exec · value) m (.ok ()) after) :
    ∃ after', Settles (exec · (.function name)) (m.pushAll literals) (.ok ()) after' ∧
      after'.Alike after := by
  obtain ⟨fuel, ran⟩ := success
  have traced : (m.trace ("call " ++ name)).Alike m := alike_iff.mpr (trace_untraced m _)
  obtain ⟨after', ran', alike⟩ := (exec_unaware fuel value).settled blind traced ran
  refine ⟨after', ⟨fuel + 1, ?_⟩, alike⟩
  exact (takes.exec_eq registered fuel).trans (by rw [ran']; rfl)

/-- The failure of the value, in the form that a call gives it, is the failure of the call. -/
theorem Takes.fails (failure : Settles (exec · value) m (.error fault) after) :
    ∃ after', Settles (exec · (.function name)) (m.pushAll literals)
        (.error (leaving after.stack (bareCause fault))) after' ∧
      after'.Alike { after with stack := literals.reverse ++ m.stack } := by
  obtain ⟨fuel, ran⟩ := failure
  have traced : (m.trace ("call " ++ name)).Alike m := alike_iff.mpr (trace_untraced m _)
  obtain ⟨left, ran', alike⟩ := (exec_unaware fuel value).settled blind traced ran
  refine ⟨left.rollback name (literals.reverse ++ m.stack) (bareCause fault), ⟨fuel + 1, ?_⟩, ?_⟩
  · rw [← alike.stack]
    exact (takes.exec_eq registered fuel).trans (by rw [ran']; rfl)
  · exact (rollback_alike name _ _ left).trans (alike.withStack _)

theorem Takes.diverges (endless : Diverges (exec · value) m) :
    Diverges (exec · (.function name)) (m.pushAll literals) := by
  intro fuel
  cases fuel with
  | zero => rfl
  | succ fuel =>
    have traced : (m.trace ("call " ++ name)).Alike m := alike_iff.mpr (trace_untraced m _)
    have ran := (exec_unaware fuel value).exhausted blind traced (endless fuel)
    exact (takes.exec_eq registered fuel).trans (by rw [ran]; rfl)

end Takes

theorem settles_of_mapFault {action action' : Nat → Action Unit} {m' : Machine} {f : Fault → Fault}
    {result : Except Fault Unit} (mapped : ∀ fuel, action' fuel m' = (action fuel m).mapFault f)
    (settles : Settles action m result after) : Settles action' m' (result.mapError f) after := by
  obtain ⟨fuel, ran⟩ := settles
  refine ⟨fuel, ?_⟩
  rw [mapped, ran]
  cases result <;> rfl

/-- Literals and an operator after them. -/
theorem evaluate_application (plain : Literals literals)
    (known : m.operators.find? symbol = some name) (fuel : Nat) :
    evaluate fuel (literals ++ [.operator symbol]) m =
      (exec fuel (.function name) (m.pushAll literals)).mapFault
        (.withToken (some (.operator symbol))) := by
  have known' : (m.pushAll literals).operators.find? symbol = some name := known
  rw [evaluate_append, evaluate_literals plain]
  exact evaluate_operator known' fuel

/-- The ways to run a block: by itself, if a condition holds, or as one of two branches. -/
inductive RunsBlock (b : List Value) : Routine Unit → List Value → Prop
  | exec : RunsBlock b Core.exec [.block b]
  | whenTrue {c : Value} (holds : c.truth? = some true) :
      RunsBlock b Core.whenTrue [c, .block b]
  | chosen {c : Value} (holds : c.truth? = some true) (e : List Value) :
      RunsBlock b Core.choose [c, .block b, .block e]
  | otherwise {c : Value} (fails : c.truth? = some false) (e : List Value) :
      RunsBlock b Core.choose [c, .block e, .block b]

/-- A condition is a literal: code has no truth. -/
theorem literals_of_truth {c : Value} {holds : Bool} (truth : c.truth? = some holds)
    {values : List Value} (plain : Literals values) : Literals (c :: values) := by
  intro v member symbol
  rcases List.mem_cons.mp member with rfl | later
  · rintro rfl
    cases truth
  · exact plain v later symbol

theorem runWith_takeTruth_bind {c : Value} {holds : Bool} (truth : c.truth? = some holds)
    (exec : Value → Action Unit) (n : Nat) (f : Bool → Routine Unit) (m : Machine) :
    runWith exec n (Routine.takeTruth >>= f) (m.push c) = runWith exec n (f holds) m := by
  cases c <;> cases truth <;> rfl

theorem RunsBlock.takes {b : List Value} (runs : RunsBlock b word literals) :
    Takes word literals (.block b) := by
  have blocks : ∀ bodies : List (List Value), Literals (bodies.map .block) := by
    simp [Literals]
  cases runs with
  | exec => exact takes_exec (by simp)
  | @whenTrue c holds =>
    refine ⟨literals_of_truth holds (blocks [b]), fun exec n m => ?_⟩
    have taken := runWith_takeTruth_bind holds exec n
      (fun holds => if holds then Core.runBlock b else pure ()) m
    exact taken.trans (runWith_invoke exec n (.block b) m)
  | @chosen c holds e =>
    refine ⟨literals_of_truth holds (blocks [b, e]), fun exec n m => ?_⟩
    have taken := runWith_takeTruth_bind holds exec n
      (fun holds => Core.runBlock (if holds then b else e)) m
    exact taken.trans (runWith_invoke exec n (.block b) m)
  | @otherwise c fails e =>
    refine ⟨literals_of_truth fails (blocks [e, b]), fun exec n m => ?_⟩
    have taken := runWith_takeTruth_bind fails exec n
      (fun holds => Core.runBlock (if holds then e else b)) m
    exact taken.trans (runWith_invoke exec n (.block b) m)

theorem Succeeds.block {b : List Value} (success : Succeeds b m after) :
    Settles (exec · (.block b)) m (.ok ()) after := by
  obtain ⟨fuel, ran⟩ := success
  replace ran : evaluateWith (exec fuel) b m = .done () after := ran
  exact ⟨fuel + 1, by simp [exec, ran, Outcome.mapFault, Outcome.settled]⟩

theorem Fails.block {b : List Value} (failure : Fails b m fault after) :
    Settles (exec · (.block b)) m (.error (fault.withToken none)) after := by
  obtain ⟨fuel, ran⟩ := failure
  replace ran : evaluateWith (exec fuel) b m = .failed fault after := ran
  exact ⟨fuel + 1, by simp [exec, ran, Outcome.mapFault, Outcome.settled]⟩

/-- A block that a word runs does what its tokens do in its place. A failure is reported at the
operator, with the stack that the tokens left, and the call puts its literals back. -/
theorem running_block_inlines {b : List Value} (blind : m.Blind) (runs : RunsBlock b word literals)
    (bound : m.Binds symbol word) :
    (∀ after, Succeeds b m after →
      ∃ after', Succeeds (literals ++ [.operator symbol]) m after' ∧ after'.Alike after) ∧
    ∀ fault after cause, Fails b m fault after → fault.cause? = some cause →
      ∃ after', Fails (literals ++ [.operator symbol]) m
          (.evaluation cause after.stack (some (.operator symbol))) after' ∧
        after'.Alike { after with stack := literals.reverse ++ m.stack } := by
  obtain ⟨name, known, registered⟩ := bound
  have applied := evaluate_application runs.takes.plain known
  constructor
  · intro after success
    obtain ⟨after', outer, alike⟩ := runs.takes.succeeds blind registered success.block
    exact ⟨after', settles_of_mapFault applied outer, alike⟩
  · intro fault after cause failure caused
    obtain ⟨after', outer, alike⟩ := runs.takes.fails blind registered failure.block
    have surface : (leaving after.stack (bareCause (fault.withToken none))).withToken
        (some (.operator symbol)) = .evaluation cause after.stack (some (.operator symbol)) := by
      cases fault <;> cases caused <;> rfl
    exact ⟨after', surface ▸ settles_of_mapFault applied outer, alike⟩

/-- A machine with a word that runs a block on a condition. -/
def branching : Machine where
  functions := ⟨[("when", Core.whenTrue), ("alias", Core.bindAlias), ("drop", Core.drop)]⟩
  operators := ⟨[("?", "when"), ("@", "alias")]⟩

/-- Tokens that make another operator of `?` and fail after that. -/
def rebinding : List Value :=
  [.string "drop", .string "?", .operator "@", .boolean false, .operator "!"]

theorem running_block_inlines_rebinding :
    ∃ after after', Fails rebinding branching (.evaluation (.unknownSymbol "!") [.boolean false]
        (some (.operator "!"))) after ∧
      after.operators.find? "?" = some "drop" ∧
      Fails [.boolean true, .block rebinding, .operator "?"] branching
        (.evaluation (.unknownSymbol "!") [.boolean false] (some (.operator "?"))) after' ∧
      after'.Alike { after with stack := [.block rebinding, .boolean true] } := by
  have blind : branching.Blind := by
    simp [Blind, branching, Core.blind_whenTrue, Core.blind_bindAlias, Core.blind_drop]
  have failed : ∃ after,
      Fails rebinding branching
        (.evaluation (.unknownSymbol "!") [.boolean false] (some (.operator "!"))) after ∧
      after.stack = [.boolean false] ∧ after.operators.find? "?" = some "drop" :=
    ⟨_, ⟨4, rfl⟩, rfl, rfl⟩
  obtain ⟨after, failure, stack, rebound⟩ := failed
  have bound : branching.Binds "?" Core.whenTrue := ⟨"when", rfl, rfl⟩
  have runs : RunsBlock rebinding Core.whenTrue [.boolean true, .block rebinding] := .whenTrue rfl
  obtain ⟨after', outer, alike⟩ :=
    (running_block_inlines blind runs bound).2 _ after _ failure rfl
  rw [stack] at outer
  exact ⟨after, after', failure, rebound, outer, alike⟩

end Cairn.Machine
