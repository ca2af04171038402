import Cairn.Proofs.Disciplines
import Cairn.Proofs.UnreadLines

set_option autoImplicit false

/-!
# Disciplined runs

Sessions with the core library keep to a discipline at every point of every run. The values are of
a kind that is closed under all that the words do; no native function reads a text, runs tokens of
its own making or writes to the trace; and none catches a failure, so that a native function always
fails with a bare cause or with a failure from outside the language.
-/

namespace Cairn

/-- The tokens that run when a value runs. -/
def Value.body : Value → List Value
  | .block body => body
  | _ => []

/-- A kind of values that sessions do not leave: it has all that is read, all that the core words
make, and with a block the tokens in it. -/
class Value.Closed (holds : Value → Prop) : Prop where
  string : ∀ s, holds (.string s)
  number : ∀ x, holds (.number x)
  boolean : ∀ b, holds (.boolean b)
  body : ∀ v, holds v → ∀ w ∈ v.body, holds w
  reading : ∀ {isOperator : Char → Bool} {source : String} {reading : Reading},
    read isOperator source = .ok reading → ∀ v ∈ reading.tokens, holds v

/-- A request that only hands over values of a kind, reads nothing, and leaves the trace alone. -/
def Request.Modest (holds : Value → Prop) : Request → Prop
  | .push v | .storeAt _ v | .invoke v => holds v
  | .trace _ | .parse _ | .evaluate _ => False
  | _ => True

/-- The discipline of core sessions. -/
def Discipline.modest (holds : Value → Prop) : Discipline where
  Holds := holds
  Asks := Request.Modest holds
  Raises := Fault.OfInvocation

instance {holds : Value → Prop} [kind : Value.Closed holds] :
    (Discipline.modest holds).Ample where
  string := kind.string
  number := kind.number
  boolean := kind.boolean
  pop := trivial
  valueAt _ := trivial
  push _ := id
  storeAt _ _ := id
  invoke _ := id
  emit _ := trivial
  assignOperator _ _ _ := trivial
  language _ := trivial
  registers _ _ := trivial

namespace Fault.OfInvocation

variable {fault : Fault}

theorem withToken (raised : fault.OfInvocation) (token : Option Value) :
    (fault.withToken token).OfInvocation := by
  cases fault <;> exact raised

theorem bareCause (raised : fault.OfInvocation) : (Machine.bareCause fault).OfInvocation := by
  cases fault with
  | evaluation cause stack token => cases raised
  | _ => exact raised

end Fault.OfInvocation

namespace Machine

variable {holds : Value → Prop} {m : Machine}

structure Obeys (holds : Value → Prop) (m : Machine) : Prop where
  stack : ∀ v ∈ m.stack, holds v
  functions : ∀ e ∈ m.functions.entries, e.2.Obeys (.modest holds)

/-- A change of the stack alone. -/
theorem Obeys.withStack (obeys : m.Obeys holds) {stack : List Value}
    (fits : ∀ v ∈ stack, holds v) : Obeys holds { m with stack := stack } :=
  ⟨fits, obeys.functions⟩

theorem Obeys.trace (obeys : m.Obeys holds) (message : String) :
    (m.trace message).Obeys holds :=
  ⟨by simpa using obeys.stack, by simpa using obeys.functions⟩

theorem Obeys.rollback (obeys : m.Obeys holds) {before : List Value}
    (fits : ∀ v ∈ before, holds v) (name : String) (fault : Fault) :
    (m.rollback name before fault).Obeys holds :=
  ⟨by simpa using fits, by simpa using obeys.functions⟩

theorem Obeys.define (obeys : m.Obeys holds) (name : String) {body : Routine Unit}
    (modest : body.Obeys (.modest holds)) : (m.define name body).Obeys holds := by
  refine ⟨obeys.stack, fun e member => ?_⟩
  rcases Table.mem_insert member with old | rfl
  · exact obeys.functions e old
  · exact modest

end Machine

namespace Frames

/-- What waits is the end of a native function, or of a round in one. -/
def isNative : {α : Type} → Frames α → Bool
  | _, .call .. | _, .round .. => true
  | _, _ => false

/-- Frames that go on within a discipline and pass a failure on. Tokens are evaluated for native
code only at the outermost level, where a source was run. -/
def Obeys (holds : Value → Prop) : {α : Type} → Frames α → Prop
  | _, .top => True
  | _, .operator _ rest outer => (∀ v ∈ rest, holds v) ∧ outer.isNative = false ∧ outer.Obeys holds
  | _, .block outer => outer.isNative = false ∧ outer.Obeys holds
  | _, .call _ before outer =>
    (∀ v ∈ before, holds v) ∧ outer.isNative = false ∧ outer.Obeys holds
  | _, .evaluate next outer =>
    (∀ fault, next (.error fault) = .fail fault) ∧ (next (.ok ())).Obeys (.modest holds) ∧
      outer = .top
  | _, .invoke next outer =>
    (∀ fault, next (.error fault) = .fail fault) ∧ (next (.ok ())).Obeys (.modest holds) ∧
      outer.Obeys holds
  | _, .round again next outer =>
    again.Obeys (.modest holds) ∧ (∀ fault, next (.error fault) = .fail fault) ∧
      (next (.ok ())).Obeys (.modest holds) ∧ outer.Obeys holds

end Frames

/-- Work that keeps to a discipline under what waits for it. A failure on its way out of a call has
the form of a failed evaluation until an invocation hands it to native code. -/
def Work.Obeys (holds : Value → Prop) : {α : Type} → Work α → Frames α → Prop
  | _, .tokens list, frames => (∀ v ∈ list, holds v) ∧ frames.isNative = false
  | _, .value v, frames => (∀ w ∈ v.body, holds w) ∧ frames.isNative = false
  | _, .routine r, frames =>
    r.Obeys (.modest holds) ∨
      ∃ fault, r = .fail fault ∧ fault.OfEvaluation ∧ frames.isNative = false

namespace Configuration

variable {α : Type} {holds : Value → Prop} {c c' : Configuration} {m m' : Machine}
  {frames : Frames α} {fault : Fault}

structure Obeys (holds : Value → Prop) (c : Configuration) : Prop where
  machine : c.machine.Obeys holds
  work : c.work.Obeys holds c.frames
  frames : c.frames.Obeys holds

/-- What native code fails with is a bare cause, or comes from outside the language. -/
theorem Obeys.ofInvocation (obeys : Obeys holds ⟨.routine (.fail fault), frames, m⟩)
    (native : frames.isNative = true) : fault.OfInvocation := by
  rcases obeys.work with raised | ⟨_, _, _, foreign⟩
  · exact raised
  · cases native.symm.trans foreign

theorem Answers.obeys {request : Request} {result : Except Fault request.Reply}
    (answers : Answers m request result m') (obeys : m.Obeys holds)
    (modest : request.Modest holds) :
    m'.Obeys holds ∧ ∀ reply, result = .ok reply → request.Brings holds reply := by
  cases answers with
  | refuse request fault => exact ⟨obeys, fun _ refused => by cases refused⟩
  | push v =>
    have fits : ∀ w ∈ v :: m.stack, holds w := List.forall_mem_cons.mpr ⟨modest, obeys.stack⟩
    exact ⟨obeys.withStack fits, fun _ _ => trivial⟩
  | @pop v below stack =>
    obtain ⟨top, rest⟩ := List.forall_mem_cons.mp (stack ▸ obeys.stack)
    refine ⟨obeys.withStack rest, fun _ same => ?_⟩
    cases same
    exact top
  | valueAt place present =>
    refine ⟨obeys, fun _ same => ?_⟩
    cases same
    exact obeys.stack _ (List.mem_of_getElem? present)
  | storeAt v place =>
    refine ⟨obeys.withStack fun w member => ?_, fun _ _ => trivial⟩
    rcases List.mem_or_eq_of_mem_set member with old | rfl
    · exact obeys.stack w old
    · exact modest
  | clear => exact ⟨obeys.withStack (by simp), fun _ _ => trivial⟩
  | forgetFunction name =>
    refine ⟨⟨obeys.stack, fun e member => ?_⟩, fun _ _ => trivial⟩
    exact obeys.functions e (List.mem_of_mem_filter member)
  | trace message => exact modest.elim
  | parse success => exact modest.elim
  | _ => exact ⟨⟨obeys.stack, obeys.functions⟩, fun _ _ => trivial⟩

theorem ofInvocation_of_respond {exec : Value → Action Unit} {request : Request}
    (isLocal : request.nests = false) (modest : request.Modest holds)
    (failed : Machine.respond exec request m = .failed fault m') : fault.OfInvocation := by
  rcases fault_of_respond isLocal failed with
    ⟨cause, rfl⟩ | ⟨source, cause, offset, rfl, rfl⟩ | ⟨symbol, name, rfl, several, rfl⟩
  · trivial
  · exact modest.elim
  · trivial

/-- A request that runs nothing, answered or refused. -/
theorem answer_obeys {request : Request} {next : Except Fault request.Reply → Routine α}
    (isLocal : request.nests = false)
    (obeys : Obeys holds ⟨.routine (.perform request next), frames, m⟩)
    (stepped : step ⟨.routine (.perform request next), frames, m⟩ = some c) : c.Obeys holds := by
  obtain ⟨machine, modest | ⟨_, absurd, _⟩, waiting⟩ := obeys
  case inr => cases absurd
  obtain ⟨asks, passes, goesOn⟩ := modest
  obtain ⟨result, m', answered, stepped'⟩ :=
    step_perform_local isLocal (fun _ _ => .exhausted) next frames m
  cases stepped'.symm.trans stepped
  obtain ⟨machine', brings⟩ := (answers_of_respond isLocal answered).obeys machine asks
  refine ⟨machine', .inl ?_, waiting⟩
  cases result with
  | ok reply => exact goesOn reply (brings reply rfl)
  | error fault =>
    rw [passes]
    exact ofInvocation_of_respond isLocal asks answered

theorem resume_ok_obeys {a : α} (machine : m.Obeys holds) (waiting : frames.Obeys holds)
    (resumed : resume (.ok a) frames m = some c) : c.Obeys holds := by
  cases frames with
  | top => cases resumed
  | operator symbol rest outer =>
    cases resumed
    exact ⟨machine, ⟨waiting.1, waiting.2.1⟩, waiting.2.2⟩
  | block outer =>
    cases resumed
    exact ⟨machine, .inl trivial, waiting.2⟩
  | call name before outer =>
    cases resumed
    exact ⟨machine, .inl trivial, waiting.2.2⟩
  | evaluate next outer =>
    obtain ⟨_, goesOn, rfl⟩ := waiting
    cases resumed
    exact ⟨machine, .inl goesOn, trivial⟩
  | invoke next outer =>
    cases resumed
    exact ⟨machine, .inl waiting.2.1, waiting.2.2⟩
  | round again next outer =>
    cases a <;> cases resumed
    · exact ⟨machine, .inl waiting.2.2.1, waiting.2.2.2⟩
    · exact ⟨machine, .inl waiting.1, waiting⟩

theorem resume_error_obeys (obeys : Obeys holds ⟨.routine (.fail fault), frames, m⟩)
    (resumed : resume (.error fault) frames m = some c) : c.Obeys holds := by
  have ⟨machine, work, waiting⟩ := obeys
  -- A failure has one of two forms; which of them, only the frames around native code can tell.
  have outgoing : fault.OfInvocation ∨ fault.OfEvaluation := by
    rcases work with raised | ⟨_, same, surfaced, _⟩
    · exact .inl raised
    · cases same
      exact .inr surfaced
  have onwards : ∀ {outer : Frames Unit} (token : Option Value), outer.isNative = false →
      Work.Obeys holds (.routine (.fail (fault.withToken token))) outer := by
    intro outer token foreign
    rcases outgoing with raised | surfaced
    · exact .inl (raised.withToken token)
    · exact .inr ⟨_, rfl, surfaced.withToken token, foreign⟩
  cases frames with
  | top => cases resumed
  | operator symbol rest outer =>
    cases resumed
    exact ⟨machine, onwards _ waiting.2.1, waiting.2.2⟩
  | block outer =>
    cases resumed
    exact ⟨machine, onwards _ waiting.1, waiting.2⟩
  | call name before outer =>
    cases resumed
    refine ⟨machine.rollback waiting.1 name fault, .inr ?_, waiting.2.2⟩
    exact ⟨_, rfl, Fault.ofEvaluation_leaving _ _, waiting.2.1⟩
  | evaluate next outer =>
    obtain ⟨passes, _, rfl⟩ := waiting
    cases resumed
    refine ⟨machine, ?_, trivial⟩
    rw [passes]
    exact outgoing.imp id fun surfaced => ⟨fault, rfl, surfaced, rfl⟩
  | invoke next outer =>
    cases resumed
    refine ⟨machine, .inl ?_, waiting.2.2⟩
    rw [Except.mapError, waiting.1]
    rcases outgoing with raised | surfaced
    · exact raised.bareCause
    · exact surfaced.bareCause
  | round again next outer =>
    cases resumed
    refine ⟨machine, .inl ?_, waiting.2.2.2⟩
    rw [waiting.2.1]
    exact obeys.ofInvocation rfl

variable [kind : Value.Closed holds]

theorem step_obeys (obeys : c.Obeys holds) (stepped : c.step = some c') : c'.Obeys holds := by
  have ⟨machine, work, frames⟩ := obeys
  cases moves_of_step stepped with
  | finish outer m => exact ⟨machine, .inl trivial, frames⟩
  | unknown absent rest outer => exact ⟨machine, .inr ⟨_, rfl, trivial, work.2⟩, frames⟩
  | operator known rest outer =>
    have later : ∀ v ∈ rest, holds v := fun v member => work.1 v (List.mem_cons_of_mem _ member)
    exact ⟨machine, ⟨by simp [Value.body], rfl⟩, later, work.2, frames⟩
  | literal literal rest outer m =>
    obtain ⟨first, later⟩ := List.forall_mem_cons.mp work.1
    have fits := List.forall_mem_cons.mpr ⟨first, machine.stack⟩
    exact ⟨machine.withStack fits, ⟨later, work.2⟩, frames⟩
  | call registered outer =>
    have modest := machine.functions _ (Table.mem_of_find? registered)
    exact ⟨machine.trace _, .inl modest, machine.stack, work.2, frames⟩
  | block body outer m => exact ⟨machine, ⟨work.1, rfl⟩, work.2, frames⟩
  | unregistered absent outer => exact ⟨machine, .inr ⟨_, rfl, trivial, work.2⟩, frames⟩
  | unfit _ _ outer m => exact ⟨machine, .inr ⟨_, rfl, trivial, work.2⟩, frames⟩
  | @resume α result outer m c resumed =>
    cases result with
    | ok a => exact resume_ok_obeys machine frames resumed
    | error fault => exact resume_error_obeys obeys resumed
  | evaluate tokens next outer m =>
    rcases work with modest | ⟨_, absurd, _⟩
    · exact modest.1.elim
    · cases absurd
  | invoke value next outer m =>
    rcases work with ⟨held, passes, goesOn⟩ | ⟨_, absurd, _⟩
    · exact ⟨machine, ⟨kind.body value held, rfl⟩, passes, goesOn () trivial, frames⟩
    · cases absurd
  | answer isLocal next outer answers => exact answer_obeys isLocal obeys stepped
  | define name body next outer m =>
    rcases work with ⟨_, defined, goesOn⟩ | ⟨_, absurd, _⟩
    · exact ⟨machine.define name defined, .inl goesOn, frames⟩
    · cases absurd
  | iterate round next outer m =>
    rcases work with ⟨again, passes, goesOn⟩ | ⟨_, absurd, _⟩
    · exact ⟨machine, .inl again, again, passes, goesOn, frames⟩
    · cases absurd

theorem Reaches.obeys (reached : Reaches c c') (obeys : c.Obeys holds) : c'.Obeys holds :=
  reached.preserves step_obeys obeys

/-- What every step keeps that starts within the discipline, every run keeps. -/
theorem Reaches.preserves_obeying {P : Configuration → Prop} (reached : Reaches c c')
    (kept : ∀ {before after : Configuration}, before.Obeys holds → P before →
      before.step = some after → P after)
    (obeys : c.Obeys holds) (initially : P c) : P c' := by
  refine (reached.preserves (P := fun c => c.Obeys holds ∧ P c) ?_ ⟨obeys, initially⟩).2
  intro before after both stepped
  exact ⟨step_obeys both.1 stepped, kept both.1 both.2 stepped⟩

/-- The point of a run where the text has been read. -/
def opened (tokens : List Value) (m : Machine) : Configuration :=
  ⟨.tokens tokens, .evaluate Routine.ofExcept .top, m⟩

theorem step_start {source : String} {reading : Reading}
    (readable : m.parse source = .ok reading) :
    step (start source m) = some ⟨.routine (Routine.evaluate reading.tokens), .top, m⟩ := by
  have asked : step (start source m) = ask (.parse source) (fun reply =>
      (Routine.ofExcept reply).bind fun reading => Routine.evaluate reading.tokens) .top m := rfl
  rw [asked]
  simp only [ask, Machine.respond, readable]
  rfl

theorem opened_obeys {source : String} {reading : Reading}
    (readable : m.parse source = .ok reading) (obeys : m.Obeys holds) :
    (opened reading.tokens m).Obeys holds :=
  ⟨obeys, ⟨kind.reading (Machine.parse_eq_ok.mp readable), rfl⟩, fun _ => rfl, trivial, rfl⟩

end Configuration

namespace Machine

open Cairn.Configuration

variable {holds : Value → Prop} [kind : Value.Closed holds] {m m' created : Machine}
  {source : String} {result : Except Fault Unit} {fuel : Nat} {tracing : Bool}

theorem run_settles_iff_evaluate {reading : Reading} (readable : m.parse source = .ok reading) :
    Settles (run · source) m result m' ↔ Settles (evaluate · reading.tokens) m result m' := by
  simp only [Settles, run_eq_parse, readable]

theorem run_settles_of_unreadable {fault : Fault} (unreadable : m.parse source = .error fault)
    (ran : Settles (run · source) m result m') : result = .error fault ∧ m' = m := by
  obtain ⟨fuel, ran⟩ := ran
  replace ran : run fuel source m = .settled result m' := ran
  rw [run_eq_parse, unreadable] at ran
  exact Outcome.failed_eq_settled.mp ran

/-- A run that reads its text goes on from there. -/
theorem opened_reaches_ending {reading : Reading} (readable : m.parse source = .ok reading)
    (ran : Settles (run · source) m result m') :
    Reaches (opened reading.tokens m) (ending .top result m') := by
  rw [run_settles_iff_evaluate readable] at ran
  have reached := ran.reaches (fun fuel => evaluate_agrees fuel reading.tokens m)
    (.evaluate Routine.ofExcept .top)
  exact reached.tail (by cases result <;> rfl)

theorem Obeys.run (obeys : m.Obeys holds) (ran : Settles (run · source) m result m') :
    m'.Obeys holds := by
  cases readable : m.parse source with
  | ok reading =>
    exact ((opened_reaches_ending readable ran).obeys (opened_obeys readable obeys)).machine
  | error fault =>
    obtain ⟨_, rfl⟩ := run_settles_of_unreadable readable ran
    exact obeys

theorem Later.obeys (session : Later m m') (obeys : m.Obeys holds) : m'.Obeys holds := by
  induction session with
  | refl => exact obeys
  | run session ran inductionHypothesis => exact inductionHypothesis.run ran

/-- The blocks of the functions that the core library defines in the language are read too. -/
theorem preludeFunctions_obey : ∀ e ∈ preludeFunctions, e.2.Obeys (.modest holds) := by
  have readable : ∃ reading, read (fun _ => true) Core.prelude = .ok reading ∧
      reading.tokens = [.block [.operator "d", .operator "*"], .string "sq", .operator "#",
        .block [.number 1, .operator "+"], .string "inc", .operator "#",
        .block [.number 1, .operator "-"], .string "dec", .operator "#"] := ⟨_, rfl, rfl⟩
  obtain ⟨reading, success, tokens⟩ := readable
  have read := kind.reading success
  simp only [tokens, List.forall_mem_cons] at read
  simp only [preludeFunctions, List.forall_mem_cons]
  exact ⟨Core.obeys_runBlock read.1, Core.obeys_runBlock read.2.2.2.1,
    Core.obeys_runBlock read.2.2.2.2.2.2.1, by simp⟩

theorem obeys_of_core (installed : core fuel tracing = .done () created) :
    created.Obeys holds := by
  refine ⟨by simp [stack_of_core installed], fun e member => ?_⟩
  rw [functions_of_core installed, List.mem_append, List.mem_map] at member
  rcases member with ⟨entry, member, rfl⟩ | member
  · exact Core.obeys_words entry member (fun _ => trivial) fun _ => trivial
  · exact preludeFunctions_obey e member

end Machine

namespace Outcome

variable {α : Type} {o : Outcome α}

/-! Tests of outcomes, for runs that are computed. -/

def succeedsWith (o : Outcome α) (test : Machine → Bool) : Bool :=
  match o with
  | .done _ m => test m
  | _ => false

def stopsWith (o : Outcome α) (test : Cause → List Value → Machine → Bool) : Bool :=
  match o with
  | .failed (.evaluation cause stack _) m => test cause stack m
  | _ => false

theorem exists_of_succeedsWith {test : Machine → Bool} (passed : o.succeedsWith test = true) :
    ∃ a m, o = .done a m ∧ test m = true := by
  unfold succeedsWith at passed
  split at passed
  next a m => exact ⟨a, m, rfl, passed⟩
  next => cases passed

theorem exists_of_stopsWith {test : Cause → List Value → Machine → Bool}
    (passed : o.stopsWith test = true) :
    ∃ cause stack token m, o = .failed (.evaluation cause stack token) m ∧
      test cause stack m = true := by
  unfold stopsWith at passed
  split at passed
  next cause stack token m => exact ⟨cause, stack, token, m, rfl, passed⟩
  next => cases passed

end Outcome

end Cairn
