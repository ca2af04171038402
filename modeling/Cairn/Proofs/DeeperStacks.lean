import Cairn.Proofs.LanguageErrors

set_option autoImplicit false

/-!
# Deeper stacks

Programs on a deeper stack. A request that does not ask for the whole stack counts from the top, so
what it can do it can still do when there is more below, with the same answer. This carries over to
routines, calls and token lists, as long as no function that is called looks at the whole stack.
-/

namespace Cairn

/-- The machine with more values below its stack. -/
def Machine.above (m : Machine) (below : List Value) : Machine :=
  { m with stack := m.stack ++ below }

/-- What succeeds on a stack succeeds in the same way on a deeper one. -/
def Undisturbed {α : Type} (below : List Value) (action : Action α) : Prop :=
  ∀ m a m', m.Plain false → action m = .done a m' →
    action (m.above below) = .done a (m'.above below)

namespace Machine

variable {m m' : Machine} {below : List Value} {index : Float} {value : Value}

theorem trace_above (m : Machine) (below : List Value) (message : String) :
    (m.above below).trace message = (m.trace message).above below := by
  cases tracing : m.tracing <;> simp [trace, above, tracing]

/-- Places are counted from the top. -/
theorem place?_of_le {depth deeper i : Nat} (le : depth ≤ deeper)
    (place : place? index depth = some i) : i < depth ∧ place? index deeper = some i := by
  obtain ⟨whole, less⟩ := Option.filter_eq_some_iff.mp place
  have within : i < depth := by simpa using less
  refine ⟨within, Option.filter_eq_some_iff.mpr ⟨whole, ?_⟩⟩
  simpa using Nat.lt_of_lt_of_le within le

theorem valueAt_above (found : m.valueAt index = .ok value) :
    (m.above below).valueAt index = .ok value := by
  obtain ⟨i, place, present⟩ := valueAt_eq_ok.mp found
  obtain ⟨within, place'⟩ := place?_of_le (List.length_append ▸ Nat.le_add_right ..) place
  refine valueAt_eq_ok.mpr ⟨i, place', ?_⟩
  rw [above, List.getElem?_append_left within, present]

theorem storeAt_above (stored : m.storeAt index value = .ok m') :
    (m.above below).storeAt index value = .ok (m'.above below) := by
  obtain ⟨i, place, rfl⟩ := storeAt_eq_ok.mp stored
  obtain ⟨within, place'⟩ := place?_of_le (List.length_append ▸ Nat.le_add_right ..) place
  refine storeAt_eq_ok.mpr ⟨i, place', ?_⟩
  simp [above, List.set_append_left _ _ within]

end Machine

namespace Undisturbed

variable {α β : Type} {below : List Value} {action : Action α}

theorem mapFault (runs : Undisturbed below action)
    (f : Fault → Fault) : Undisturbed below fun m => (action m).mapFault f := by
  intro m a m' plain ran
  cases first : action m with
  | done b middle =>
    simp only [first, Outcome.mapFault] at ran
    cases ran
    simp only [runs m a m' plain first, Outcome.mapFault]
  | failed fault middle => simp [first, Outcome.mapFault] at ran
  | exhausted => simp [first, Outcome.mapFault] at ran

/-- A part, and what goes on from its success and passes its failure on. -/
theorem andThen {later : Except Fault α → Action β}
    (runs : Undisturbed below action)
    (kept : ∀ m a m', m.Plain false → action m = .done a m' → m'.Plain false)
    (passes : ∀ fault m, later (.error fault) m = .failed fault m)
    (goesOn : ∀ a, Undisturbed below (later (.ok a))) :
    Undisturbed below fun m => (action m).andThen later := by
  intro m b m' plain ran
  cases first : action m with
  | done a middle =>
    simp only [first, Outcome.andThen] at ran
    simp only [runs m a middle plain first, Outcome.andThen]
    exact goesOn a middle b m' (kept m a middle plain first) ran
  | failed fault middle => simp [first, Outcome.andThen, passes] at ran
  | exhausted => simp [first, Outcome.andThen] at ran

end Undisturbed

namespace Configuration

variable {α : Type} {m m' : Machine} {below : List Value} {exec : Value → Action Unit} {n : Nat}

theorem Answers.respond_above {request : Request} {reply : request.Reply}
    (permitted : request.Permitted false) (answers : Answers m request (.ok reply) m') :
    Machine.respond exec request (m.above below) = .done reply (m'.above below) := by
  cases answers with
  | view => cases permitted
  | clear => cases permitted
  | pop stack => simp [Machine.respond, Machine.pop, Machine.above, stack, Outcome.ofExcept]
  | valueAt place present =>
    rw [Machine.respond, Machine.valueAt_above (Machine.valueAt_eq_ok.mpr ⟨_, place, present⟩)]
    rfl
  | storeAt value place =>
    rw [Machine.respond, Machine.storeAt_above (Machine.storeAt_eq_ok.mpr ⟨_, place, rfl⟩)]
    rfl
  | trace message => exact congrArg _ (m.trace_above below message)
  | assignOperator single name =>
    rw [Machine.respond, Machine.assignOperator_eq_ok.mpr ⟨single, rfl⟩]
    rfl
  | parse success =>
    have success' : (m.above below).parse _ = .ok _ := Machine.parse_eq_ok.mpr success
    rw [Machine.respond, success']
    rfl
  | _ => rfl

theorem evaluateWith_undisturbed (sound : Sound false exec)
    (runs : ∀ value, Undisturbed below (exec value)) (tokens : List Value) :
    Undisturbed below (Machine.evaluateWith exec tokens) := by
  intro m a m' plain ran
  fun_induction Machine.evaluateWith exec tokens m with
  | case1 m =>
    cases ran
    rfl
  | case2 symbol rest m token absent => cases ran
  | case3 symbol rest m name present _ middle called inductionHypothesis =>
    -- The call may have registered functions; the rest of the tokens runs with those.
    have kept := (sound (.function name) m plain).plain called
    have present' : (m.above below).operators.find? symbol = some name := present
    rw [Machine.evaluateWith, present']
    simp only [runs (.function name) m _ middle plain called]
    exact inductionHypothesis kept ran
  | case4 symbol rest m token name present fault middle called => cases ran
  | case5 symbol rest m name present called => cases ran
  | case6 value rest m literal inductionHypothesis =>
    rw [Machine.evaluateWith]
    · exact inductionHypothesis plain ran
    · exact literal

theorem respond_undisturbed (sound : Sound false exec)
    (runs : ∀ value, Undisturbed below (exec value)) {request : Request}
    (permitted : request.Permitted false) : Undisturbed below (Machine.respond exec request) := by
  cases nested : request.nests with
  | false =>
    intro m reply m' _ answered
    exact (answers_of_respond nested answered).respond_above permitted
  | true =>
    cases request with
    | evaluate tokens => exact evaluateWith_undisturbed sound runs tokens
    | invoke value => exact (runs value).mapFault Machine.bareCause
    | _ => exact absurd nested (by simp [Request.nests])

theorem iterate_undisturbed {action : Action Bool} (runs : Undisturbed below action)
    (kept : ∀ m a m', m.Plain false → action m = .done a m' → m'.Plain false) (k : Nat) :
    Undisturbed below (Machine.iterate action k) := by
  intro m a m' plain ran
  induction k generalizing m with
  | zero => cases ran
  | succ k inductionHypothesis =>
    rw [Machine.iterate] at ran ⊢
    split at ran
    next middle again =>
      rw [runs m true middle plain again]
      exact inductionHypothesis middle (kept m true middle plain again) ran
    next middle last =>
      cases ran
      rw [runs m false m' plain last]
    next => cases ran
    next => cases ran

theorem runWith_undisturbed (sound : Sound false exec)
    (runs : ∀ value, Undisturbed below (exec value)) {routine : Routine α}
    (direct : routine.Obeys (.direct false)) :
    Undisturbed below (Machine.runWith exec n routine) := by
  induction routine with
  | done a =>
    rintro m _ _ _ ⟨⟩
    rfl
  | fail fault =>
    rintro m _ _ _ ⟨⟩
  | perform request next inductionHypothesis =>
    obtain ⟨permitted, passes, goesOn⟩ := direct
    rw [funext (runWith_perform exec n request next)]
    apply (respond_undisturbed sound runs permitted).andThen
    · intro m reply m' plain answered
      exact (respond_conforms sound permitted m plain).plain answered
    · intro fault m
      rw [passes]
      rfl
    · intro reply
      exact inductionHypothesis (.ok reply) (goesOn reply (request.brings_true reply))
  | define name body next _ inductionHypothesis =>
    obtain ⟨_, bodyDirect, goesOn⟩ := direct
    intro m a m' plain ran
    exact inductionHypothesis goesOn _ a m' (plain.define name bodyDirect) ran
  | iterate round next roundHypothesis inductionHypothesis =>
    obtain ⟨roundDirect, passes, goesOn⟩ := direct
    have kept : ∀ m a m', m.Plain false → Machine.runWith exec n round m = .done a m' →
        m'.Plain false :=
      fun m a m' plain ran => (runWith_conforms sound roundDirect m plain).plain ran
    rw [funext (runWith_iterate exec n round next)]
    apply (iterate_undisturbed (roundHypothesis roundDirect) kept n).andThen
    · intro m a m' plain ran
      exact (iterate_conforms (runWith_conforms sound roundDirect) n m plain).plain ran
    · intro fault m
      rw [passes]
      rfl
    · intro _
      exact inductionHypothesis (.ok ()) goesOn

theorem callWith_undisturbed (sound : Sound false exec)
    (runs : ∀ value, Undisturbed below (exec value)) (name : String) :
    Undisturbed below (Machine.callWith exec n name) := by
  intro m a m' plain ran
  rw [Machine.callWith] at ran
  split at ran
  next => cases ran
  next body registered =>
    have registered' : (m.above below).functions.find? name = some body := registered
    have traced : (m.trace ("call " ++ name)).Plain false := by
      simpa [Machine.Plain] using plain
    have undisturbed : Undisturbed below (Machine.runWith exec n body) :=
      runWith_undisturbed sound runs (plain _ (Table.mem_of_find? registered))
    split at ran
    next middle called =>
      cases ran
      simp only [Machine.callWith, registered', Machine.trace_above]
      rw [undisturbed _ () m' traced called]
    next => cases ran
    next => cases ran

theorem exec_undisturbed (below : List Value) (fuel : Nat) (value : Value) :
    Undisturbed below (Machine.exec fuel value) := by
  induction fuel generalizing value with
  | zero =>
    rintro m _ _ _ ⟨⟩
  | succ fuel inductionHypothesis =>
    have sound := exec_sound false fuel
    cases value with
    | function name => exact callWith_undisturbed sound inductionHypothesis name
    | block body =>
      exact (evaluateWith_undisturbed sound inductionHypothesis body).mapFault _
    | _ => rintro m _ _ _ ⟨⟩

end Configuration

namespace Machine

open Cairn.Configuration

variable {m created after : Machine} {fuel : Nat} {tracing : Bool}

theorem plain_of_forgotten (installed : core fuel tracing = .done () created) :
    ((created.forgetFunction "size").2.forgetFunction "clear").2.Plain false := by
  intro e member
  simp only [forgetFunction, Table.erase, List.mem_filter, decide_eq_true_eq] at member
  obtain ⟨⟨member, notSize⟩, notClear⟩ := member
  exact plain_of_core installed member fun _ => ⟨notSize, notClear⟩

/-- In a session without the two functions that look at the whole stack, a token list that succeeds
on a stack succeeds on every deeper one, leaves alone what is below and does the same otherwise. -/
theorem core_session_undisturbed_by_deeper_stack
    (installed : core fuel tracing = .done () created)
    (session : Later ((created.forgetFunction "size").2.forgetFunction "clear").2 m)
    (tokens stack below : List Value) (success : Succeeds tokens { m with stack := stack } after) :
    Succeeds tokens { m with stack := stack ++ below }
      { after with stack := after.stack ++ below } := by
  have plain : m.Plain false := session.plain (plain_of_forgotten installed)
  obtain ⟨enough, ran⟩ := success
  exact ⟨enough, evaluateWith_undisturbed (exec_sound false enough) (exec_undisturbed below enough)
    tokens { m with stack := stack } () after plain ran⟩

/-- Registers a function that reaches under its argument, and an operator for it. -/
def reachingUnder : String := "\x7b1g\x7d \"under\" # \"under\" \"u\" @"

theorem core_session_undisturbed_by_deeper_stack_under :
    ∃ created m after, core 5 false = .done () created ∧
      Later ((created.forgetFunction "size").2.forgetFunction "clear").2 m ∧
      Succeeds [.operator "u", .operator "p"] { m with stack := [.string "b", .string "a"] } after ∧
      after.output = #["a"] ∧
      Succeeds [.operator "u", .operator "p"]
        { m with stack := [.string "b", .string "a", .string "x"] }
        { after with stack := after.stack ++ [.string "x"] } := by
  have computed : (match core 5 false with
      | .done _ created =>
        match run 5 reachingUnder
            ((created.forgetFunction "size").2.forgetFunction "clear").2 with
        | .done _ m =>
          match evaluate 5 [.operator "u", .operator "p"]
              { m with stack := [.string "b", .string "a"] } with
          | .done _ after => decide (after.output = #["a"])
          | _ => false
        | _ => false
      | _ => false) = true := by decide +kernel
  split at computed
  next created installed =>
    split at computed
    next m defined =>
      have session : Later ((created.forgetFunction "size").2.forgetFunction "clear").2 m :=
        .run (.refl _) (show Settles (run · reachingUnder) _ (.ok ()) m from ⟨5, defined⟩)
      split at computed
      next after ran =>
        have success : Succeeds [.operator "u", .operator "p"]
            { m with stack := [.string "b", .string "a"] } after := ⟨5, ran⟩
        refine ⟨created, m, after, installed, session, success, of_decide_eq_true computed, ?_⟩
        exact core_session_undisturbed_by_deeper_stack installed session _ _ [.string "x"] success
      next => cases computed
    next => cases computed
  next => cases computed

end Machine

end Cairn
