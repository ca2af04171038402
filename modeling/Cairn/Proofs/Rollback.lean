import Cairn.Proofs.Adequacy

set_option autoImplicit false

/-!
# Failed calls

Whatever a native function did before it failed, its call leaves the stack it started on; tables,
output and trace stay as they were when it failed. The caller sees the cause of a failure of the
language in its own form, and any other failure as it was if it has a text. For one without a text
the line in the trace cannot be written, and the complaint about that goes on in its place.
-/

namespace Cairn

namespace Configuration

variable {α : Type} {c c' : Configuration}

theorem Answers.tracing {m m' : Machine} {request : Request} {result : Except Fault request.Reply}
    (answers : Answers m request result m') : m'.tracing = m.tracing := by
  cases answers with
  | trace message => exact m.trace_tracing message
  | _ => rfl

theorem resume_tracing {result : Except Fault α} {frames : Frames α} {m : Machine}
    (resumed : resume result frames m = some c) : c.machine.tracing = m.tracing := by
  fun_cases resume result frames m <;> simp_all [resume] <;> subst resumed <;> simp

theorem step_tracing (stepped : c.step = some c') : c'.machine.tracing = c.machine.tracing := by
  cases moves_of_step stepped with
  | resume resumed => exact resume_tracing resumed
  | answer isLocal next frames answers => exact answers.tracing
  | call => exact Machine.trace_tracing _ _
  | _ => rfl

end Configuration

namespace Machine

open Cairn.Configuration

variable {m before atThrow after : Machine} {name symbol : String} {body : Routine Unit}
  {thrown fault : Fault}

theorem tracing_of_settles {α : Type} {routine : Routine α} {result : Except Fault α}
    (settles : Settles (perform · routine) m result after) : after.tracing = m.tracing := by
  have reached := settles.reaches (fun fuel => perform_agrees fuel routine m) .top
  exact reached.preserves (P := fun c => c.machine.tracing = m.tracing)
    (fun same stepped => (step_tracing stepped).trans same) rfl

/-- What a failed call leaves behind: the stack it started on, and the rest as it was at the
failure, but for a line in the trace if the failure has a text. -/
structure RolledBack (name : String) (thrown : Fault) (before atThrow after : Machine) : Prop where
  stack : after.stack = before.stack
  functions : after.functions = atThrow.functions
  operators : after.operators = atThrow.operators
  output : after.output = atThrow.output
  tracing : after.tracing = before.tracing
  log : after.log = match before.tracing, thrown.text with
    | true, .ok text => atThrow.log.push ("rollback " ++ name ++ ": " ++ text)
    | _, _ => atThrow.log

theorem rolledBack_iff (same : atThrow.tracing = before.tracing) :
    RolledBack name thrown before atThrow after ↔
      after = atThrow.rollback name before.stack thrown := by
  constructor
  · rintro ⟨stack, functions, operators, output, tracing, log⟩
    obtain ⟨_, _, _, _, _, _⟩ := after
    simp only at stack functions operators output tracing log
    subst stack functions operators output tracing log
    unfold rollback trace
    cases traced : before.tracing <;> cases thrown.text <;> simp [same, traced]
  · rintro rfl
    unfold rollback trace
    constructor <;> cases traced : before.tracing <;> cases thrown.text <;> simp [same, traced]

/-- A call fails: its body throws, it rolls back, and the caller sees a cause in its own form, or
another failure as it was, or the complaint about one without a text. -/
def FailedCall (m : Machine) (name : String) (body : Routine Unit)
    (surface : Cause → List Value → Fault) (fault : Fault) (after : Machine) : Prop :=
  ∃ thrown atThrow,
    Settles (perform · body) (m.trace ("call " ++ name)) (.error thrown) atThrow ∧
    RolledBack name thrown m atThrow after ∧
    fault = thrown.cause?.elim thrown.voiced (surface · atThrow.stack)

theorem exec_function (registered : m.functions.find? name = some body) (fuel : Nat) :
    exec (fuel + 1) (.function name) m =
      match perform fuel body (m.trace ("call " ++ name)) with
      | .done _ m' => .done () m'
      | .failed thrown atThrow =>
        .failed (leaving atThrow.stack thrown) (atThrow.rollback name m.stack thrown)
      | .exhausted => .exhausted := by
  simp only [exec, callWith, registered]
  rfl

theorem exec_succeeds_iff (registered : m.functions.find? name = some body) :
    Settles (exec · (.function name)) m (.ok ()) after ↔
      Settles (perform · body) (m.trace ("call " ++ name)) (.ok ()) after := by
  constructor
  · rintro ⟨fuel, ran⟩
    cases fuel with
    | zero => cases ran
    | succ fuel =>
      replace ran : exec (fuel + 1) (.function name) m = .done () after := ran
      rw [exec_function registered] at ran
      cases called : perform fuel body (m.trace ("call " ++ name)) with
      | done _ left =>
        rw [called] at ran
        cases ran
        exact ⟨fuel, called⟩
      | failed thrown left => simp [called] at ran
      | exhausted => simp [called] at ran
  · rintro ⟨fuel, ran⟩
    replace ran : perform fuel body (m.trace ("call " ++ name)) = .done () after := ran
    refine ⟨fuel + 1, ?_⟩
    change exec (fuel + 1) (.function name) m = .done () after
    rw [exec_function registered, ran]

theorem exec_fails_iff (registered : m.functions.find? name = some body) :
    Settles (exec · (.function name)) m (.error fault) after ↔
      FailedCall m name body (.evaluation · · none) fault after := by
  have rolled : ∀ {thrown atThrow},
      Settles (perform · body) (m.trace ("call " ++ name)) (.error thrown) atThrow →
      (RolledBack name thrown m atThrow after ↔ after = atThrow.rollback name m.stack thrown) :=
    fun throws => rolledBack_iff ((tracing_of_settles throws).trans (m.trace_tracing _))
  constructor
  · rintro ⟨fuel, failed⟩
    cases fuel with
    | zero => cases failed
    | succ fuel =>
      replace failed : exec (fuel + 1) (.function name) m = .failed fault after := failed
      rw [exec_function registered] at failed
      cases ran : perform fuel body (m.trace ("call " ++ name)) with
      | done a m' => simp [ran] at failed
      | exhausted => simp [ran] at failed
      | failed thrown atThrow =>
        have throws : Settles (perform · body) (m.trace ("call " ++ name)) (.error thrown)
          atThrow := ⟨fuel, ran⟩
        simp only [ran, Outcome.failed.injEq] at failed
        refine ⟨thrown, atThrow, throws, (rolled throws).mpr failed.2.symm, ?_⟩
        rw [← failed.1, leaving]
        cases thrown.cause? <;> rfl
  · rintro ⟨thrown, atThrow, throws, rolledBack, rfl⟩
    rw [rolled throws] at rolledBack
    obtain ⟨fuel, ran⟩ := throws
    replace ran : perform fuel body (m.trace ("call " ++ name)) = .failed thrown atThrow := ran
    refine ⟨fuel + 1, ?_⟩
    change exec (fuel + 1) (.function name) m = .failed _ after
    simp only [exec_function registered, ran, rolledBack, leaving]
    cases thrown.cause? <;> rfl

theorem settles_mapFault (action : Nat → Action Unit) {action' : Nat → Action Unit}
    {f : Fault → Fault} (mapped : ∀ fuel, action' fuel m = (action fuel m).mapFault f) :
    Settles action' m (.error fault) after ↔
      ∃ inner, Settles action m (.error inner) after ∧ fault = f inner := by
  constructor
  · rintro ⟨fuel, failed⟩
    rw [mapped] at failed
    cases ran : action fuel m with
    | done a m' => simp [ran, Outcome.mapFault, Outcome.settled] at failed
    | exhausted => simp [ran, Outcome.mapFault, Outcome.settled] at failed
    | failed inner m' =>
      simp only [ran, Outcome.mapFault, Outcome.settled, Outcome.failed.injEq] at failed
      obtain ⟨rfl, rfl⟩ := failed
      exact ⟨inner, ⟨fuel, ran⟩, rfl⟩
  · rintro ⟨inner, ⟨fuel, ran⟩, rfl⟩
    exact ⟨fuel, by rw [mapped, ran]; rfl⟩

/-- A map of failures leaves successes alone. -/
theorem settles_mapFault_ok (action : Nat → Action Unit) {action' : Nat → Action Unit}
    {f : Fault → Fault} (mapped : ∀ fuel, action' fuel m = (action fuel m).mapFault f) :
    Settles action' m (.ok ()) after ↔ Settles action m (.ok ()) after := by
  have same : ∀ fuel, action' fuel m = .settled (.ok ()) after ↔
      action fuel m = .settled (.ok ()) after := by
    intro fuel
    rw [mapped]
    cases action fuel m <;> simp [Outcome.mapFault, Outcome.settled]
  exact exists_congr same

theorem evaluate_operator (known : m.operators.find? symbol = some name) (fuel : Nat) :
    evaluate fuel [.operator symbol] m =
      (exec fuel (.function name) m).mapFault (.withToken (some (.operator symbol))) := by
  simp only [evaluate, evaluateWith, known]
  cases exec fuel (.function name) m <;> rfl

/-- The form a caller gives to a failure only depends on its form as it left the call. -/
theorem FailedCall.map {surface surface' : Cause → List Value → Fault} {f : Fault → Fault}
    (surfaces : ∀ cause stack, f (surface cause stack) = surface' cause stack)
    (others : ∀ thrown : Fault, thrown.cause? = none → f thrown = thrown) :
    FailedCall m name body surface' fault after ↔
      ∃ inner, FailedCall m name body surface inner after ∧ fault = f inner := by
  have through : ∀ (thrown : Fault) (stack : List Value),
      thrown.cause?.elim thrown.voiced (surface' · stack) =
        f (thrown.cause?.elim thrown.voiced (surface · stack)) := by
    intro thrown stack
    cases caused : thrown.cause? with
    | none => exact (others _ (thrown.cause?_voiced.trans caused)).symm
    | some cause => exact (surfaces cause stack).symm
  constructor
  · rintro ⟨thrown, atThrow, throws, rolledBack, rfl⟩
    exact ⟨_, ⟨thrown, atThrow, throws, rolledBack, rfl⟩, through thrown atThrow.stack⟩
  · rintro ⟨inner, ⟨thrown, atThrow, throws, rolledBack, rfl⟩, rfl⟩
    exact ⟨thrown, atThrow, throws, rolledBack, (through thrown atThrow.stack).symm⟩

theorem withToken_of_cause_none (token : Option Value) (foreign : thrown.cause? = none) :
    thrown.withToken token = thrown := by
  cases thrown with
  | evaluation cause stack token => cases foreign
  | _ => rfl

theorem bareCause_of_cause_none (foreign : thrown.cause? = none) : bareCause thrown = thrown := by
  cases thrown with
  | evaluation cause stack token => cases foreign
  | _ => rfl

theorem failedCall_operator_iff :
    FailedCall m name body (.evaluation · · (some (.operator symbol))) fault after ↔
      ∃ inner, FailedCall m name body (.evaluation · · none) inner after ∧
        fault = inner.withToken (some (.operator symbol)) :=
  FailedCall.map (fun _ _ => rfl) fun _ foreign => withToken_of_cause_none _ foreign

theorem failedCall_invoke_iff :
    FailedCall m name body (fun cause _ => .language cause) fault after ↔
      ∃ inner, FailedCall m name body (.evaluation · · none) inner after ∧
        fault = bareCause inner :=
  FailedCall.map (fun _ _ => rfl) fun _ foreign => bareCause_of_cause_none foreign

theorem evaluate_operator_fails_iff (registered : m.functions.find? name = some body)
    (known : m.operators.find? symbol = some name) :
    Settles (evaluate · [.operator symbol]) m (.error fault) after ↔
      FailedCall m name body (.evaluation · · (some (.operator symbol))) fault after := by
  rw [settles_mapFault _ (evaluate_operator known), failedCall_operator_iff]
  simp only [exec_fails_iff registered]

theorem invoke_fails_iff (registered : m.functions.find? name = some body) :
    Settles (invoke · (.function name)) m (.error fault) after ↔
      FailedCall m name body (fun cause _ => .language cause) fault after := by
  rw [settles_mapFault (exec · (.function name)) fun fuel => rfl, failedCall_invoke_iff]
  simp only [exec_fails_iff registered]

theorem evaluate_operator_succeeds_iff (registered : m.functions.find? name = some body)
    (known : m.operators.find? symbol = some name) :
    Settles (evaluate · [.operator symbol]) m (.ok ()) after ↔
      Settles (perform · body) (m.trace ("call " ++ name)) (.ok ()) after := by
  rw [settles_mapFault_ok _ (evaluate_operator known), exec_succeeds_iff registered]

theorem invoke_succeeds_iff (registered : m.functions.find? name = some body) :
    Settles (invoke · (.function name)) m (.ok ()) after ↔
      Settles (perform · body) (m.trace ("call " ++ name)) (.ok ()) after := by
  rw [settles_mapFault_ok (exec · (.function name)) fun fuel => rfl, exec_succeeds_iff registered]

theorem FailedCall.reaches (registered : m.functions.find? name = some body)
    (failed : FailedCall m name body (.evaluation · · none) fault after) (frames : Frames Unit) :
    Reaches ⟨.value (.function name), frames, m⟩ ⟨.routine (.fail fault), frames, after⟩ :=
  ((exec_fails_iff registered).mpr failed).reaches (fun fuel => exec_agrees fuel _ m) frames

/-- A failed call puts the stack back and nothing else: through an operator and through an
invocation, as the outermost call and under the frames of any other calls. -/
theorem failed_call_rolls_back (registered : m.functions.find? name = some body) :
    (∀ symbol, m.operators.find? symbol = some name → ∀ fault after,
      (Settles (evaluate · [.operator symbol]) m (.error fault) after ↔
        FailedCall m name body (.evaluation · · (some (.operator symbol))) fault after) ∧
      (FailedCall m name body (.evaluation · · (some (.operator symbol))) fault after →
        ∀ rest frames, Reaches ⟨.tokens (.operator symbol :: rest), frames, m⟩
          ⟨.routine (.fail fault), frames, after⟩)) ∧
    (∀ fault after,
      (Settles (invoke · (.function name)) m (.error fault) after ↔
        FailedCall m name body (fun cause _ => .language cause) fault after) ∧
      (FailedCall m name body (fun cause _ => .language cause) fault after →
        ∀ {α : Type} (next : Except Fault Unit → Routine α) frames,
          Reaches ⟨.routine (.perform (.invoke (.function name)) next), frames, m⟩
            ⟨.routine (next (.error fault)), frames, after⟩)) ∧
    ∀ thrown atThrow,
      Settles (perform · body) (m.trace ("call " ++ name)) (.error thrown) atThrow →
      ∀ frames, Reaches ⟨.value (.function name), frames, m⟩
        ⟨.routine (.fail thrown), .call name m.stack frames, atThrow⟩ := by
  refine ⟨fun symbol known fault after => ⟨evaluate_operator_fails_iff registered known, ?_⟩,
    fun fault after => ⟨invoke_fails_iff registered, ?_⟩, fun thrown atThrow throws frames => ?_⟩
  · intro failed rest frames
    obtain ⟨inner, call, rfl⟩ := failedCall_operator_iff.mp failed
    have reached := call.reaches registered (.operator symbol rest frames)
    exact .head (step_operator known rest frames) (reached.tail rfl)
  · intro failed α next frames
    obtain ⟨inner, call, rfl⟩ := failedCall_invoke_iff.mp failed
    exact .head rfl ((call.reaches registered (.invoke next frames)).tail rfl)
  · have reached := throws.reaches (fun fuel => perform_agrees fuel body _)
      (.call name m.stack frames)
    exact .head (step_call registered frames) reached

/-- Changes all of a machine, catches a failure on the way and then fails. -/
def spoil : Routine Unit := do
  Routine.clear
  Routine.push (.string "left")
  Routine.emit "seen"
  let _ ← (Routine.invoke (.function "missing")).attempt
  Routine.assignOperator "?" "late"
  .define "late" (.done ()) (.fail (.language .tooFewArguments))

def spoiled : Machine where
  stack := [.block [.operator "!"], .boolean true]
  functions := ⟨[("spoil", spoil)]⟩
  operators := ⟨[("!", "spoil")]⟩
  tracing := true

theorem failed_call_rolls_back_spoiled :
    ∃ after, Settles (evaluate · [.operator "!"]) spoiled
        (.error (.evaluation .tooFewArguments [.string "left"] (some (.operator "!")))) after ∧
      FailedCall spoiled "spoil" spoil (.evaluation · · (some (.operator "!")))
        (.evaluation .tooFewArguments [.string "left"] (some (.operator "!"))) after ∧
      after.stack = [.block [.operator "!"], .boolean true] ∧ after.output = #["seen"] ∧
      after.log.size = 2 := by
  have failed : ∃ after, Settles (evaluate · [.operator "!"]) spoiled
        (.error (.evaluation .tooFewArguments [.string "left"] (some (.operator "!")))) after ∧
      after.stack = [.block [.operator "!"], .boolean true] ∧ after.output = #["seen"] ∧
      after.log.size = 2 := ⟨_, ⟨3, rfl⟩, rfl, rfl, rfl⟩
  obtain ⟨after, settles, stack, output, log⟩ := failed
  exact ⟨after, settles, (((failed_call_rolls_back rfl).1 "!" rfl _ after).1).mp settles, stack,
    output, log⟩

/-- Throws a thing without a text. -/
def mumble : Routine Unit :=
  .fail (.mute "TypeError" "Cannot convert object to primitive value")

def mumbling : Machine where
  functions := ⟨[("mumble", mumble)]⟩
  operators := ⟨[("?", "mumble")]⟩
  tracing := true

/-- A thing without a text does not go on from the call that it fails, and the trace has no line for
the rollback. -/
theorem mute_failure_does_not_go_on :
    Settles (perform · mumble) (mumbling.trace "call mumble")
      (.error (.mute "TypeError" "Cannot convert object to primitive value"))
      (mumbling.trace "call mumble") ∧
    Settles (invoke · (.function "mumble")) mumbling
      (.error (.foreign "TypeError" "Cannot convert object to primitive value"))
      (mumbling.trace "call mumble") :=
  ⟨⟨0, rfl⟩, ⟨1, rfl⟩⟩

end Machine

end Cairn
