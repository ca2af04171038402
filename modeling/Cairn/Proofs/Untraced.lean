import Cairn.Proofs.BlindRoutines
import Cairn.Proofs.CompletedTokens
import Cairn.Proofs.Tables

set_option autoImplicit false

/-!
# Machines without their trace

Nothing that a machine of blind functions does depends on its trace. A machine with tracing switched
off and its log emptied takes every request, call and token list to the same end: the same answer,
or the same failure, or no end with the same fuel, and the same stack, tables and output.
-/

namespace Cairn

namespace Machine

/-- The machine as it would be if it had never traced. -/
def untraced (m : Machine) : Machine := { m with tracing := false, log := #[] }

/-- Machines that differ at most in their trace. -/
structure Alike (m m' : Machine) : Prop where
  stack : m.stack = m'.stack
  functions : m.functions = m'.functions
  operators : m.operators = m'.operators
  output : m.output = m'.output

namespace Alike

variable {m m' m'' : Machine}

theorem refl (m : Machine) : m.Alike m := ⟨rfl, rfl, rfl, rfl⟩

theorem symm (alike : m.Alike m') : m'.Alike m :=
  ⟨alike.stack.symm, alike.functions.symm, alike.operators.symm, alike.output.symm⟩

theorem trans (first : m.Alike m') (second : m'.Alike m'') : m.Alike m'' where
  stack := first.stack.trans second.stack
  functions := first.functions.trans second.functions
  operators := first.operators.trans second.operators
  output := first.output.trans second.output

theorem withStack (alike : m.Alike m') (stack : List Value) :
    ({ m with stack } : Machine).Alike { m' with stack } :=
  ⟨rfl, alike.functions, alike.operators, alike.output⟩

end Alike

theorem alike_iff {m m' : Machine} : m.Alike m' ↔ m.untraced = m'.untraced := by
  constructor
  · rintro ⟨stack, functions, operators, output⟩
    simp [untraced, stack, functions, operators, output]
  · intro same
    simp only [untraced, mk.injEq] at same
    exact ⟨same.1, same.2.1, same.2.2.1, same.2.2.2.2.1⟩

theorem rollback_alike (name : String) (before : List Value) (fault : Fault) (m : Machine) :
    (m.rollback name before fault).Alike { m with stack := before } := by
  constructor <;> simp

/-- No function of the machine reads its trace. -/
def Blind (m : Machine) : Prop := ∀ e ∈ m.functions.entries, e.2.Blind

@[simp]
theorem trace_untraced (m : Machine) (message : String) :
    (m.trace message).untraced = m.untraced := by
  unfold trace
  split <;> rfl

@[simp]
theorem untraced_trace (m : Machine) (message : String) : m.untraced.trace message = m.untraced :=
  rfl

theorem rollback_untraced (name : String) (before : List Value) (fault : Fault) (m : Machine) :
    (m.rollback name before fault).untraced = m.untraced.rollback name before fault := by
  unfold rollback
  cases fault.text with
  | ok text => exact trace_untraced { m with stack := before } _
  | error complaint => rfl

theorem Blind.trace {m : Machine} (blind : m.Blind) (message : String) :
    (m.trace message).Blind := by
  simpa [Blind] using blind

theorem Blind.rollback {m : Machine} (blind : m.Blind) (name : String) (before : List Value)
    (fault : Fault) : (m.rollback name before fault).Blind := by
  simpa [Blind] using blind

theorem Blind.define {m : Machine} {body : Routine Unit} (blind : m.Blind) (name : String)
    (bodyBlind : body.Blind) : (m.define name body).Blind := by
  intro e member
  rcases Table.mem_insert member with old | rfl
  · exact blind e old
  · exact bodyBlind

end Machine

namespace Outcome

variable {α : Type}

def untraced : Outcome α → Outcome α
  | .done a m => .done a m.untraced
  | .failed fault m => .failed fault m.untraced
  | .exhausted => .exhausted

def Blind : Outcome α → Prop
  | .done _ m => m.Blind
  | .failed _ m => m.Blind
  | .exhausted => True

end Outcome

/-- An action that comes to the same end without a trace, as long as no function reads it, and
registers no function that does. -/
def Unaware {α : Type} (action : Action α) : Prop :=
  ∀ m, m.Blind → action m.untraced = (action m).untraced ∧ (action m).Blind

theorem Outcome.untraced_eq_settled {α : Type} {o : Outcome α} {result : Except Fault α}
    {m : Machine} :
    o.untraced = (Outcome.settled result m).untraced ↔
      ∃ m', o = .settled result m' ∧ m'.Alike m := by
  cases o <;> cases result <;>
    simp [untraced, settled, Machine.alike_iff, eq_comm, and_assoc]

namespace Unaware

variable {α β : Type} {action : Action α} {m m' after : Machine} {result : Except Fault α}

theorem untraced_eq (unaware : Unaware action) (blind : m.Blind) (alike : m'.Alike m) :
    (action m').untraced = (action m).untraced := by
  have blind' : m'.Blind := fun e member => blind e (alike.functions ▸ member)
  rw [← (unaware m' blind').1, ← (unaware m blind).1, Machine.alike_iff.mp alike]

/-- On machines that differ in their trace the action comes to the same result. -/
theorem settled (unaware : Unaware action) (blind : m.Blind) (alike : m'.Alike m)
    (ran : action m = .settled result after) :
    ∃ after', action m' = .settled result after' ∧ after'.Alike after := by
  have same := unaware.untraced_eq blind alike
  rw [ran] at same
  exact Outcome.untraced_eq_settled.mp same

theorem exhausted (unaware : Unaware action) (blind : m.Blind) (alike : m'.Alike m)
    (ran : action m = .exhausted) : action m' = .exhausted := by
  have same := unaware.untraced_eq blind alike
  rw [ran] at same
  cases first : action m' <;> rw [first] at same <;> first | rfl | cases same

theorem mapFault (unaware : Unaware action) (f : Fault → Fault) :
    Unaware fun m => (action m).mapFault f := by
  intro m blind
  obtain ⟨same, kept⟩ := unaware m blind
  dsimp only
  rw [same]
  cases first : action m <;> rw [first] at kept <;> exact ⟨rfl, kept⟩

theorem pure (a : α) : Unaware (pure a : Action α) := fun _ blind => ⟨rfl, blind⟩

theorem fail (fault : Fault) : Unaware (Action.fail fault : Action α) := fun _ blind => ⟨rfl, blind⟩

theorem inspect {f : Machine → α} (same : ∀ m : Machine, f m.untraced = f m) :
    Unaware (Action.inspect f) := by
  intro m blind
  refine ⟨?_, blind⟩
  change Outcome.done (f m.untraced) m.untraced = _
  rw [same]
  rfl

theorem bind {later : α → Action β} (unaware : Unaware action)
    (goesOn : ∀ a, Unaware (later a)) : Unaware (action >>= later) := by
  intro m blind
  obtain ⟨same, kept⟩ := unaware m blind
  change (action m.untraced).bind later = ((action m).bind later).untraced ∧
    ((action m).bind later).Blind
  rw [same]
  cases first : action m with
  | done a middle =>
    rw [first] at kept
    exact goesOn a middle kept
  | failed fault middle =>
    rw [first] at kept
    exact ⟨rfl, kept⟩
  | exhausted => exact ⟨rfl, trivial⟩

theorem attempt (unaware : Unaware action) : Unaware action.attempt := by
  intro m blind
  obtain ⟨same, kept⟩ := unaware m blind
  unfold Action.attempt
  rw [same]
  cases first : action m <;> rw [first] at kept <;> exact ⟨rfl, kept⟩

theorem andThen {later : Except Fault α → Action β} (unaware : Unaware action)
    (goesOn : ∀ result, Unaware (later result)) : Unaware fun m => (action m).andThen later := by
  intro m blind
  obtain ⟨same, kept⟩ := unaware m blind
  dsimp only
  rw [same]
  cases first : action m with
  | done a middle =>
    rw [first] at kept
    exact goesOn (.ok a) middle kept
  | failed fault middle =>
    rw [first] at kept
    exact goesOn (.error fault) middle kept
  | exhausted => exact ⟨rfl, trivial⟩

end Unaware

theorem Configuration.Answers.blind {m m' : Machine} {request : Request}
    {result : Except Fault request.Reply} (answers : Answers m request result m')
    (blind : m.Blind) : m'.Blind := by
  cases answers with
  | trace message => exact blind.trace message
  | forgetFunction name => exact fun e member => blind e (List.mem_filter.mp member).1
  | _ => exact blind

namespace Machine

open Cairn.Configuration

variable {α : Type}

section Layers

variable {exec : Value → Action Unit}

theorem evaluateWith_unaware (unaware : ∀ value, Unaware (exec value)) (tokens : List Value) :
    Unaware (evaluateWith exec tokens) := by
  intro m blind
  fun_induction evaluateWith exec tokens m with
  | case1 m => exact ⟨rfl, blind⟩
  | case2 symbol rest m token absent =>
    have absent' : m.untraced.operators.find? symbol = none := absent
    rw [evaluateWith, absent']
    exact ⟨rfl, blind⟩
  | case3 symbol rest m name present _ middle called inductionHypothesis =>
    obtain ⟨same, kept⟩ := unaware (.function name) m blind
    have present' : m.untraced.operators.find? symbol = some name := present
    rw [called] at same kept
    rw [evaluateWith, present']
    simp only [same]
    exact inductionHypothesis kept
  | case4 symbol rest m token name present fault middle called =>
    obtain ⟨same, kept⟩ := unaware (.function name) m blind
    have present' : m.untraced.operators.find? symbol = some name := present
    rw [called] at same kept
    rw [evaluateWith, present']
    simp only [same]
    exact ⟨rfl, kept⟩
  | case5 symbol rest m name present called =>
    have same := (unaware (.function name) m blind).1
    have present' : m.untraced.operators.find? symbol = some name := present
    rw [called] at same
    rw [evaluateWith, present']
    simp only [same]
    exact ⟨rfl, trivial⟩
  | case6 value rest m literal inductionHypothesis =>
    rw [evaluateWith]
    · exact inductionHypothesis blind
    · exact literal

theorem respond_untraced {request : Request} (isLocal : request.nests = false)
    (readable : request.Blind) (m : Machine) :
    respond exec request m.untraced = (respond exec request m).untraced := by
  cases request with
  | evaluate tokens => exact absurd isLocal (by simp [Request.nests])
  | invoke value => exact absurd isLocal (by simp [Request.nests])
  | log => cases readable
  | trace message => simp [respond, Outcome.untraced]
  | pop =>
    obtain ⟨stack, _, _, _, _, _⟩ := m
    cases stack <;> rfl
  | valueAt index =>
    change Outcome.ofExcept m.untraced ((m.valueAt index).map _) = _
    rw [respond]
    cases m.valueAt index <;> rfl
  | storeAt index value =>
    simp only [respond, storeAt, untraced]
    split <;> rfl
  | assignOperator symbol name =>
    simp only [respond, assignOperator]
    split <;> rfl
  | parse source =>
    change Outcome.ofExcept m.untraced ((m.parse source).map _) = _
    rw [respond]
    cases m.parse source <;> rfl
  | _ => rfl

theorem respond_unaware (unaware : ∀ value, Unaware (exec value)) {request : Request}
    (readable : request.Blind) : Unaware (respond exec request) := by
  cases nested : request.nests with
  | false =>
    intro m blind
    refine ⟨respond_untraced nested readable m, ?_⟩
    have kept : ∀ result m', respond exec request m = .settled result m' → m'.Blind :=
      fun result m' answered => (answers_of_respond nested answered).blind blind
    cases answered : respond exec request m with
    | done reply m' => exact kept (.ok reply) m' answered
    | failed fault m' => exact kept (.error fault) m' answered
    | exhausted => trivial
  | true =>
    cases request with
    | evaluate tokens => exact evaluateWith_unaware unaware tokens
    | invoke value => exact (unaware value).mapFault bareCause
    | _ => exact absurd nested (by simp [Request.nests])

theorem iterate_unaware {round : Action Bool} (unaware : Unaware round) (k : Nat) :
    Unaware (iterate round k) := by
  intro m blind
  induction k generalizing m with
  | zero => exact ⟨rfl, trivial⟩
  | succ k inductionHypothesis =>
    obtain ⟨same, kept⟩ := unaware m blind
    rw [iterate, iterate, same]
    cases first : round m with
    | done again middle =>
      rw [first] at kept
      cases again with
      | true => exact inductionHypothesis middle kept
      | false => exact ⟨rfl, kept⟩
    | failed fault middle =>
      rw [first] at kept
      exact ⟨rfl, kept⟩
    | exhausted => exact ⟨rfl, trivial⟩

theorem runWith_unaware (unaware : ∀ value, Unaware (exec value)) (n : Nat) {routine : Routine α}
    (readable : routine.Blind) : Unaware (runWith exec n routine) := by
  induction routine with
  | done a => exact fun m blind => ⟨rfl, blind⟩
  | fail fault => exact fun m blind => ⟨rfl, blind⟩
  | perform request next inductionHypothesis =>
    rw [funext (runWith_perform exec n request next)]
    exact (respond_unaware unaware readable.1).andThen fun result =>
      inductionHypothesis result (readable.2 result)
  | define name body next _ inductionHypothesis =>
    exact fun m blind => inductionHypothesis readable.2 _ (blind.define name readable.1)
  | iterate round next roundHypothesis inductionHypothesis =>
    rw [funext (runWith_iterate exec n round next)]
    exact (iterate_unaware (roundHypothesis readable.1) n).andThen fun result =>
      inductionHypothesis result (readable.2 result)

theorem callWith_unaware (unaware : ∀ value, Unaware (exec value)) (n : Nat) (name : String) :
    Unaware (callWith exec n name) := by
  intro m blind
  unfold callWith
  have same : m.untraced.functions.find? name = m.functions.find? name := rfl
  rw [same]
  cases registered : m.functions.find? name with
  | none => exact ⟨rfl, blind⟩
  | some body =>
    -- The call and the rollback are traced; neither shows in the machine without its trace.
    have readable := blind _ (Table.mem_of_find? registered)
    obtain ⟨same, kept⟩ := runWith_unaware unaware n readable _ (blind.trace ("call " ++ name))
    rw [trace_untraced] at same
    simp only [untraced_trace, same]
    cases ran : runWith exec n body (m.trace ("call " ++ name)) with
    | done _ m' =>
      rw [ran] at kept
      exact ⟨rfl, kept⟩
    | failed fault m' =>
      rw [ran] at kept
      exact ⟨congrArg (Outcome.failed _) (rollback_untraced name m.stack fault m').symm,
        Blind.rollback kept name m.stack fault⟩
    | exhausted => exact ⟨rfl, trivial⟩

end Layers

/-- Running a value does not depend on the trace, whatever the fuel. -/
theorem exec_unaware (fuel : Nat) (value : Value) : Unaware (exec fuel value) := by
  induction fuel generalizing value with
  | zero => exact fun m _ => ⟨rfl, trivial⟩
  | succ fuel inductionHypothesis =>
    cases value with
    | function name => exact callWith_unaware inductionHypothesis fuel name
    | block body => exact (evaluateWith_unaware inductionHypothesis body).mapFault (.withToken none)
    | _ => exact fun m blind => ⟨rfl, blind⟩

theorem perform_unaware (fuel : Nat) {routine : Routine α} (readable : routine.Blind) :
    Unaware (perform fuel routine) :=
  runWith_unaware (exec_unaware fuel) fuel readable

end Machine

end Cairn
