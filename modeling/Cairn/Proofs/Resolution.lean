import Cairn.Proofs.Adequacy
import Cairn.Proofs.RoundTrip
import Cairn.Proofs.Tables
import Cairn.Proofs.TameRoutines

set_option autoImplicit false

/-!
# Resolution of operators

In a session with the core library every operator resolves. The reader only takes operators that
are known, the core words only move values around, and no name is ever forgotten; so the operators
in pending tokens, in blocks on the stack and in defined functions stay known, also after a call
that was rolled back.
-/

namespace Cairn

namespace Frames

/-- The tokens that wait in the frames, the operators that wait for their calls included. -/
def pending : {α : Type} → Frames α → List Value
  | _, .top => []
  | _, .operator symbol rest outer => .operator symbol :: rest ++ outer.pending
  | _, .block outer => outer.pending
  | _, .call _ _ outer => outer.pending
  | _, .evaluate _ outer => outer.pending
  | _, .invoke _ outer => outer.pending
  | _, .round _ _ outer => outer.pending

/-- Frames that go on tamely whatever is known by then. -/
def Tame (known : List String) : {α : Type} → Frames α → Prop
  | _, .top => True
  | _, .operator symbol rest outer =>
    Value.symbolsIn (.operator symbol :: rest) ⊆ known ∧ outer.Tame known
  | _, .block outer => outer.Tame known
  | _, .call _ before outer => (∀ v ∈ before, v.Storable known) ∧ outer.Tame known
  | _, .evaluate next outer =>
    (∀ known', known ⊆ known' → ∀ reply, (next reply).Tame known') ∧ outer.Tame known
  | _, .invoke next outer =>
    (∀ known', known ⊆ known' → ∀ reply, (next reply).Tame known') ∧ outer.Tame known
  | _, .round again next outer =>
    (∀ known', known ⊆ known' → again.Tame known') ∧
      (∀ known', known ⊆ known' → ∀ reply, (next reply).Tame known') ∧ outer.Tame known

theorem Tame.mono {α : Type} {frames : Frames α} {known known' : List String}
    (grows : known ⊆ known') (tame : frames.Tame known) : frames.Tame known' := by
  induction frames with
  | top => trivial
  | operator symbol rest outer inductionHypothesis =>
    exact ⟨List.Subset.trans tame.1 grows, inductionHypothesis tame.2⟩
  | block outer inductionHypothesis => exact inductionHypothesis tame
  | call name before outer inductionHypothesis =>
    exact ⟨fun v member => (tame.1 v member).mono grows, inductionHypothesis tame.2⟩
  | evaluate next outer inductionHypothesis =>
    exact ⟨fun later grows' => tame.1 later (List.Subset.trans grows grows'),
      inductionHypothesis tame.2⟩
  | invoke next outer inductionHypothesis =>
    exact ⟨fun later grows' => tame.1 later (List.Subset.trans grows grows'),
      inductionHypothesis tame.2⟩
  | round again next outer inductionHypothesis =>
    exact ⟨fun later grows' => tame.1 later (List.Subset.trans grows grows'),
      fun later grows' => tame.2.1 later (List.Subset.trans grows grows'),
      inductionHypothesis tame.2.2⟩

theorem Tame.pending {α : Type} {frames : Frames α} {known : List String}
    (tame : frames.Tame known) : Value.symbolsIn frames.pending ⊆ known := by
  rw [Value.symbolsIn_subset_iff]
  induction frames with
  | top => simp [Frames.pending]
  | operator symbol rest outer inductionHypothesis =>
    intro v member
    rcases List.mem_append.mp member with here | below
    · exact Value.symbolsIn_subset_iff.mp tame.1 v here
    · exact inductionHypothesis tame.2 v below
  | block outer inductionHypothesis => exact inductionHypothesis tame
  | call name before outer inductionHypothesis => exact inductionHypothesis tame.2
  | evaluate next outer inductionHypothesis => exact inductionHypothesis tame.2
  | invoke next outer inductionHypothesis => exact inductionHypothesis tame.2
  | round again next outer inductionHypothesis => exact inductionHypothesis tame.2.2

end Frames

namespace Work

/-- The tokens that are being evaluated, or the value that is to run. -/
def pending : {α : Type} → Work α → List Value
  | _, .tokens list => list
  | _, .value v => [v]
  | _, .routine _ => []

def Tame (known : List String) : {α : Type} → Work α → Prop
  | _, .tokens list => Value.symbolsIn list ⊆ known
  | _, .value v => v.symbols ⊆ known
  | _, .routine r => r.Tame known

theorem Tame.pending {α : Type} {work : Work α} {known : List String} (tame : work.Tame known) :
    Value.symbolsIn work.pending ⊆ known := by
  cases work with
  | tokens list => exact tame
  | value v =>
    refine Value.symbolsIn_subset_iff.mpr fun w member => ?_
    exact List.mem_singleton.mp member ▸ tame
  | routine r => simp [Work.pending, Value.symbolsIn]

end Work

namespace Machine

/-- Every operator in the state is known: in the values on the stack, and in the functions. -/
structure Resolved (m : Machine) : Prop where
  stack : ∀ v ∈ m.stack, v.Storable m.operators.keys
  functions : ∀ e ∈ m.functions.entries, Registrable m.operators.keys e.2

/-- No operator and no function is lost. -/
structure Grows (m m' : Machine) : Prop where
  operators : m.operators.keys ⊆ m'.operators.keys
  functions : m.functions.keys ⊆ m'.functions.keys

variable {m m' m'' : Machine}

theorem Grows.of_tables (operators : m'.operators = m.operators)
    (functions : m'.functions = m.functions) : Grows m m' :=
  ⟨operators ▸ List.Subset.refl _, functions ▸ List.Subset.refl _⟩

theorem Grows.trans (first : Grows m m') (second : Grows m' m'') : Grows m m'' :=
  ⟨List.Subset.trans first.operators second.operators,
    List.Subset.trans first.functions second.functions⟩

/-- A change of the stack alone. -/
theorem Resolved.withStack (resolved : Resolved m) {stack : List Value}
    (storable : ∀ v ∈ stack, v.Storable m.operators.keys) : Resolved { m with stack := stack } :=
  ⟨storable, resolved.functions⟩

theorem Resolved.trace (resolved : Resolved m) (message : String) :
    Resolved (m.trace message) :=
  ⟨by simpa using resolved.stack, by simpa using resolved.functions⟩

theorem Resolved.rollback (resolved : Resolved m) {before : List Value}
    (storable : ∀ v ∈ before, v.Storable m.operators.keys) (name : String) (fault : Fault) :
    Resolved (m.rollback name before fault) :=
  ⟨by simpa using storable, by simpa using resolved.functions⟩

theorem Resolved.define (resolved : Resolved m) (name : String) {body : Routine Unit}
    (registrable : Registrable m.operators.keys body) : Resolved (m.define name body) := by
  refine ⟨resolved.stack, fun e member => ?_⟩
  rcases Table.mem_insert member with old | rfl
  · exact resolved.functions e old
  · exact registrable

theorem symbols_subset_keys {v : Value} (readable : v.Readable m.isOperator) :
    v.symbols ⊆ m.operators.keys := by
  induction readable with
  | block _ inductionHypothesis =>
    exact Value.symbolsIn_subset_iff.mpr inductionHypothesis
  | operator known _ =>
    simpa [Value.symbols] using Table.contains_iff.mp known
  | _ => simp [Value.symbols]

end Machine

namespace Configuration

variable {α : Type} {c c' : Configuration} {m m' : Machine}

/-- An answer to a tame request keeps the state resolved, and grants what tame routines rely on. -/
theorem Answers.resolved {request : Request} {result : Except Fault request.Reply}
    (answers : Answers m request result m') (resolved : m.Resolved)
    (tame : request.Tame m.operators.keys) :
    m'.Resolved ∧ m.Grows m' ∧ request.Extends m.operators.keys m'.operators.keys ∧
      request.Grants m'.operators.keys result := by
  cases answers with
  | refuse request fault =>
    exact ⟨resolved, .of_tables rfl rfl, request.extends_refl _, request.grants_error _ fault⟩
  | view => exact ⟨resolved, .of_tables rfl rfl, rfl, trivial⟩
  | log => exact ⟨resolved, .of_tables rfl rfl, rfl, trivial⟩
  | push v =>
    have storable : ∀ w ∈ v :: m.stack, w.Storable m.operators.keys :=
      List.forall_mem_cons.mpr ⟨tame, resolved.stack⟩
    exact ⟨resolved.withStack storable, .of_tables rfl rfl, rfl, trivial⟩
  | @pop v below stack =>
    have storable : ∀ w ∈ v :: below, w.Storable m.operators.keys := stack ▸ resolved.stack
    obtain ⟨top, rest⟩ := List.forall_mem_cons.mp storable
    exact ⟨resolved.withStack rest, .of_tables rfl rfl, rfl, top⟩
  | valueAt place present =>
    exact ⟨resolved, .of_tables rfl rfl, rfl, resolved.stack _ (List.mem_of_getElem? present)⟩
  | storeAt v place =>
    refine ⟨resolved.withStack fun w member => ?_, .of_tables rfl rfl, rfl, trivial⟩
    rcases List.mem_or_eq_of_mem_set member with old | rfl
    · exact resolved.stack w old
    · exact tame
  | clear => exact ⟨resolved.withStack (by simp), .of_tables rfl rfl, rfl, trivial⟩
  | emit text =>
    exact ⟨⟨resolved.stack, resolved.functions⟩, .of_tables rfl rfl, rfl, trivial⟩
  | trace message =>
    exact ⟨resolved.trace message, .of_tables (by simp) (by simp),
      congrArg Table.keys (m.trace_operators message), trivial⟩
  | @assignOperator symbol single name =>
    have grows : m.operators.keys ⊆ (m.operators.insert symbol name).keys :=
      Table.keys_subset_insert
    refine ⟨⟨fun v member => ?_, fun e member => ?_⟩, ⟨grows, List.Subset.refl _⟩, grows, trivial⟩
    · exact (resolved.stack v member).mono grows
    · exact (resolved.functions e member).mono grows
  | forgetFunction name => exact tame.elim
  | forgetOperator symbol => exact tame.elim
  | parse success =>
    refine ⟨resolved, .of_tables rfl rfl, rfl, Value.symbolsIn_subset_iff.mpr fun v member => ?_⟩
    exact Machine.symbols_subset_keys (readable_of_read success v member)

/-- Every operator that may still be called is known. -/
structure Resolved (c : Configuration) : Prop where
  machine : c.machine.Resolved
  work : c.work.Tame c.machine.operators.keys
  frames : c.frames.Tame c.machine.operators.keys

theorem resume_resolved {result : Except Fault α} {frames : Frames α} (resolved : m.Resolved)
    (tame : frames.Tame m.operators.keys) (resumed : resume result frames m = some c) :
    c.Resolved ∧ m.Grows c.machine := by
  have same : m.Grows m := .of_tables rfl rfl
  have known : m.operators.keys ⊆ m.operators.keys := List.Subset.refl _
  cases frames with
  | top => cases resumed
  | operator symbol rest outer =>
    cases result <;> cases resumed
    · exact ⟨⟨resolved, trivial, tame.2⟩, same⟩
    · exact ⟨⟨resolved, (Value.symbolsIn_cons_subset_iff.mp tame.1).2, tame.2⟩, same⟩
  | block outer =>
    cases result <;> cases resumed <;> exact ⟨⟨resolved, trivial, tame⟩, same⟩
  | call name before outer =>
    cases result <;> cases resumed
    next fault =>
      have kept := m.rollback_operators name before fault
      refine ⟨⟨resolved.rollback tame.1 name fault, trivial, ?_⟩, .of_tables kept (by simp)⟩
      exact kept.symm ▸ tame.2
    · exact ⟨⟨resolved, trivial, tame.2⟩, same⟩
  | evaluate next outer =>
    cases result <;> cases resumed <;>
      exact ⟨⟨resolved, tame.1 _ known _, tame.2⟩, same⟩
  | invoke next outer =>
    cases result <;> cases resumed <;>
      exact ⟨⟨resolved, tame.1 _ known _, tame.2⟩, same⟩
  | round again next outer =>
    cases result with
    | error fault =>
      cases resumed
      exact ⟨⟨resolved, tame.2.1 _ known _, tame.2.2⟩, same⟩
    | ok goesOn =>
      cases goesOn <;> cases resumed
      · exact ⟨⟨resolved, tame.2.1 _ known _, tame.2.2⟩, same⟩
      · exact ⟨⟨resolved, tame.1 _ known, tame⟩, same⟩

/-- A step of resolved code leads to resolved code, and nothing known is lost. -/
theorem step_resolved (resolved : c.Resolved) (stepped : c.step = some c') :
    c'.Resolved ∧ c.machine.Grows c'.machine := by
  obtain ⟨machine, work, frames⟩ := resolved
  cases moves_of_step stepped with
  | finish outer m => exact ⟨⟨machine, trivial, frames⟩, .of_tables rfl rfl⟩
  | unknown absent rest outer => exact ⟨⟨machine, trivial, frames⟩, .of_tables rfl rfl⟩
  | operator known rest outer =>
    exact ⟨⟨machine, List.nil_subset _, work, frames⟩, .of_tables rfl rfl⟩
  | literal literal rest outer m =>
    obtain ⟨first, later⟩ := Value.symbolsIn_cons_subset_iff.mp work
    have storable := List.forall_mem_cons.mpr ⟨⟨literal, first⟩, machine.stack⟩
    exact ⟨⟨machine.withStack storable, later, frames⟩, .of_tables rfl rfl⟩
  | @call name body m registered outer =>
    have registrable := machine.functions _ (Table.mem_of_find? registered)
    have kept := m.trace_operators ("call " ++ name)
    refine ⟨⟨machine.trace _, ?_, ?_⟩, .of_tables kept (by simp)⟩
    · exact kept.symm ▸ Core.tame_of_registrable registrable
    · exact kept.symm ▸ ⟨machine.stack, frames⟩
  | block body outer m => exact ⟨⟨machine, work, frames⟩, .of_tables rfl rfl⟩
  | unregistered absent outer => exact ⟨⟨machine, trivial, frames⟩, .of_tables rfl rfl⟩
  | unfit _ _ outer m => exact ⟨⟨machine, trivial, frames⟩, .of_tables rfl rfl⟩
  | resume resumed => exact resume_resolved machine frames resumed
  | evaluate tokens next outer m =>
    refine ⟨⟨machine, work.1, fun known' grows reply => ?_, frames⟩, .of_tables rfl rfl⟩
    exact work.2 known' grows reply trivial
  | invoke value next outer m =>
    refine ⟨⟨machine, work.1, fun known' grows reply => ?_, frames⟩, .of_tables rfl rfl⟩
    exact work.2 known' grows reply trivial
  | answer isLocal next outer answers =>
    obtain ⟨machine', grows, extended, granted⟩ := answers.resolved machine work.1
    exact ⟨⟨machine', work.2 _ extended _ granted, frames.mono grows.operators⟩, grows⟩
  | define name body next outer m =>
    refine ⟨⟨machine.define name work.1, work.2, frames⟩, ?_⟩
    exact ⟨List.Subset.refl _, Table.keys_subset_insert⟩
  | iterate round next outer m =>
    exact ⟨⟨machine, work.1 _ (List.Subset.refl _), work.1, work.2, frames⟩, .of_tables rfl rfl⟩

theorem Reaches.resolved (reached : Reaches c c') (resolved : c.Resolved) :
    c'.Resolved ∧ c.machine.Grows c'.machine := by
  refine reached.preserves (P := fun c' => c'.Resolved ∧ c.machine.Grows c'.machine) ?_
    ⟨resolved, .of_tables rfl rfl⟩
  intro before after kept stepped
  obtain ⟨resolved', grows⟩ := step_resolved kept.1 stepped
  exact ⟨resolved', kept.2.trans grows⟩

/-- Every operator that code may still come to is known at a point of a run, and none lies on the
stack itself. -/
structure OperatorsKnown (c : Configuration) : Prop where
  tokens : Value.symbolsIn (c.work.pending ++ c.frames.pending) ⊆ c.machine.operators.keys
  stack : ∀ v ∈ c.machine.stack, v.symbols ⊆ c.machine.operators.keys
  noOperator : ∀ v ∈ c.machine.stack, ∀ symbol, v ≠ .operator symbol
  functions : ∀ name tokens, c.machine.functions.find? name = some (Core.runBlock tokens) →
    Value.symbolsIn tokens ⊆ c.machine.operators.keys
  /-- An operator that is next to run has a name. -/
  resolves : ∀ symbol rest frames m, c = ⟨.tokens (.operator symbol :: rest), frames, m⟩ →
    ∃ name, m.operators.find? symbol = some name

theorem Resolved.operatorsKnown (resolved : c.Resolved) : OperatorsKnown c where
  tokens := by
    apply Value.symbolsIn_subset_iff.mpr
    intro v member
    rcases List.mem_append.mp member with now | waiting
    · exact Value.symbolsIn_subset_iff.mp resolved.work.pending v now
    · exact Value.symbolsIn_subset_iff.mp resolved.frames.pending v waiting
  stack := by
    intro v member
    exact (resolved.machine.stack v member).2
  noOperator := by
    intro v member
    exact (resolved.machine.stack v member).1
  functions := by
    intro name tokens found
    have registrable := resolved.machine.functions _ (Table.mem_of_find? found)
    exact Core.tame_runBlock.mp (Core.tame_of_registrable registrable)
  resolves := by
    rintro symbol rest frames m rfl
    have known := (Value.symbolsIn_cons_subset_iff.mp resolved.work).1
    exact Table.exists_find? (known (by simp [Value.symbols]))

/-- The point where a run of a source text starts. -/
def start (source : String) (m : Machine) : Configuration :=
  ⟨.routine (Routine.run source), .top, m⟩

end Configuration

namespace Machine

open Cairn.Configuration

variable {m m' : Machine} {result : Except Fault Unit}

theorem run_settles_iff (source : String) :
    Settles (run · source) m result m' ↔ Reaches (start source m) (ending .top result m') := by
  apply settles_iff_reaches
  intro fuel
  exact perform_agrees fuel (Routine.run source) m

theorem Resolved.start (resolved : m.Resolved) (source : String) : (start source m).Resolved :=
  ⟨resolved, Routine.tame_run source, trivial⟩

theorem resolved_of_core {fuel : Nat} {tracing : Bool}
    (installed : core fuel tracing = .done () m) : m.Resolved := by
  have settles : Settles (perform · Core.plugin.install) { tracing := tracing } (.ok ()) m :=
    ⟨fuel, installed⟩
  have reached := settles.reaches (fun fuel => perform_agrees fuel _ _) .top
  have empty : Configuration.Resolved
      ⟨.routine Core.plugin.install, .top, { tracing := tracing }⟩ :=
    ⟨⟨by simp, by simp [Table.empty]⟩, Core.tame_install, trivial⟩
  exact (reached.resolved empty).1.machine

/-- A later state of a session: sources were run one after another, each to its end or to its
failure. -/
inductive Later : Machine → Machine → Prop where
  | refl (m : Machine) : Later m m
  | run {m m' m'' : Machine} {source : String} {result : Except Fault Unit}
      (session : Later m m') (ran : Settles (run · source) m' result m'') : Later m m''

theorem Later.resolved (session : Later m m') (resolved : m.Resolved) :
    m'.Resolved ∧ m.Grows m' := by
  induction session with
  | refl => exact ⟨resolved, .of_tables rfl rfl⟩
  | @run m' m'' source result session ran inductionHypothesis =>
    obtain ⟨resolved', grows⟩ := inductionHypothesis
    have reached := (run_settles_iff source).mp ran
    obtain ⟨resolved'', grows'⟩ := reached.resolved (resolved'.start source)
    exact ⟨resolved''.machine, grows.trans grows'⟩

/-- At every point of every run of a session every operator resolves, and what is known stays known
to the end of the session. -/
theorem core_session_resolves {fuel : Nat} {tracing : Bool} {created m : Machine}
    (installed : core fuel tracing = .done () created) (session : Later created m) :
    (∀ source c, Reaches (start source m) c →
      OperatorsKnown c ∧ ∀ c', Reaches c c' → c.machine.Grows c'.machine) ∧
    (∀ source result m', Settles (run · source) m result m' ↔
      Reaches (start source m) (ending .top result m')) ∧
    ∀ m', Later m m' → m.Grows m' := by
  obtain ⟨resolved, _⟩ := session.resolved (resolved_of_core installed)
  refine ⟨?_, fun source result m' => run_settles_iff source, ?_⟩
  · intro source c reached
    obtain ⟨here, _⟩ := reached.resolved (resolved.start source)
    refine ⟨here.operatorsKnown, ?_⟩
    intro c' later
    exact (later.resolved here).2
  · intro m' later
    exact (later.resolved resolved).2

/-- A session that binds an operator and then fails; the operator stays. -/
theorem core_session_resolves_alias :
    ∃ created m, core 5 false = .done () created ∧ Later created m ∧ "a" ∈ m.operators.keys ∧
      ∀ c, Reaches (start "\x7b2a\x7dx" m) c → OperatorsKnown c := by
  have computed : (match core 5 false with
      | .done _ created =>
        match run 5 "\"sq\" \"a\" @k" created with
        | .failed _ m => m.operators.contains "a"
        | _ => false
      | _ => false) = true := by decide +kernel
  split at computed
  next created installed =>
    split at computed
    next fault m ran =>
      have settles : Settles (run · "\"sq\" \"a\" @k") created (.error fault) m := ⟨5, ran⟩
      have session : Later created m := .run (.refl created) settles
      refine ⟨created, m, installed, session, Table.contains_iff.mp computed, ?_⟩
      intro c reached
      exact ((core_session_resolves installed session).1 _ c reached).1
    next => cases computed
  next => cases computed

end Machine

end Cairn
