import Cairn.Proofs.Arguments
import Cairn.Proofs.LanguageErrors

set_option autoImplicit false

/-!
# Symbols of operators

The tables of a machine in every state that it can come to. Only two operations bring in keys. Both
keep the place of a key that is there already, and the one for operators refuses every symbol that
is not a single character before it writes anything. A failed call goes back to its stack and not to
its tables, so what a native function registered before it failed stays, and is in order too.
-/

namespace Cairn

namespace Machine

/-- Every operator is a single character, and no key of a table occurs twice. -/
structure WellKeyed (m : Machine) : Prop where
  single : ∀ symbol ∈ m.operators.keys, symbol.length = 1
  operators : m.operators.keys.Nodup
  functions : m.functions.keys.Nodup

variable {m m' : Machine}

theorem wellKeyed_new (tracing : Bool) : WellKeyed { tracing } := by
  constructor <;> simp [Table.empty, Table.keys]

namespace WellKeyed

theorem of_tables (keyed : m.WellKeyed) (operators : m'.operators = m.operators)
    (functions : m'.functions = m.functions) : m'.WellKeyed where
  single := operators ▸ keyed.single
  operators := operators ▸ keyed.operators
  functions := functions ▸ keyed.functions

theorem assign (keyed : m.WellKeyed) {symbol : String} (single : symbol.length = 1)
    (name : String) : WellKeyed { m with operators := m.operators.insert symbol name } where
  single := by
    intro key member
    rw [Table.keys_insert] at member
    split at member
    · exact keyed.single key member
    · rcases List.mem_append.mp member with old | new
      · exact keyed.single key old
      · exact List.mem_singleton.mp new ▸ single
  operators := Table.nodup_keys_insert keyed.operators
  functions := keyed.functions

theorem define (keyed : m.WellKeyed) (name : String) (body : Routine Unit) :
    (m.define name body).WellKeyed where
  single := keyed.single
  operators := keyed.operators
  functions := Table.nodup_keys_insert keyed.functions

theorem forgetFunction (keyed : m.WellKeyed) (name : String) :
    (m.forgetFunction name).2.WellKeyed where
  single := keyed.single
  operators := keyed.operators
  functions := Table.nodup_keys_erase keyed.functions

theorem forgetOperator (keyed : m.WellKeyed) (symbol : String) :
    (m.forgetOperator symbol).2.WellKeyed where
  single := by
    intro key member
    have erased : key ∈ (m.operators.erase symbol).keys := member
    rw [Table.keys_erase] at erased
    exact keyed.single key (List.mem_filter.mp erased).1
  operators := Table.nodup_keys_erase keyed.operators
  functions := keyed.functions

end WellKeyed

end Machine

namespace Configuration

variable {α : Type} {c c' : Configuration} {m m' : Machine}

theorem Answers.wellKeyed {request : Request} {result : Except Fault request.Reply}
    (answers : Answers m request result m') (keyed : m.WellKeyed) : m'.WellKeyed := by
  cases answers with
  | trace message => exact keyed.of_tables (by simp) (by simp)
  | assignOperator single name => exact keyed.assign single name
  | forgetFunction name => exact keyed.forgetFunction name
  | forgetOperator symbol => exact keyed.forgetOperator symbol
  | _ => exact keyed.of_tables rfl rfl

/-- A result that is handed on changes no table, also where a call is rolled back. -/
theorem resume_tables {result : Except Fault α} {frames : Frames α}
    (resumed : resume result frames m = some c) :
    c.machine.operators = m.operators ∧ c.machine.functions = m.functions := by
  fun_cases resume result frames m <;> simp_all [resume] <;> subst resumed <;> simp

theorem step_wellKeyed (keyed : c.machine.WellKeyed) (stepped : c.step = some c') :
    c'.machine.WellKeyed := by
  cases moves_of_step stepped with
  | call => exact keyed.of_tables (by simp) (by simp)
  | resume resumed =>
    obtain ⟨operators, functions⟩ := resume_tables resumed
    exact keyed.of_tables operators functions
  | answer isLocal next frames answers => exact answers.wellKeyed keyed
  | define name body next frames m => exact keyed.define name body
  | _ => exact keyed.of_tables rfl rfl

theorem Reaches.wellKeyed (reached : Reaches c c') (keyed : c.machine.WellKeyed) :
    c'.machine.WellKeyed :=
  reached.preserves (P := fun c => c.machine.WellKeyed) step_wellKeyed keyed

end Configuration

namespace Machine

open Cairn.Configuration

variable {m m' : Machine} {symbol name : String} {below : List Value} {fault : Fault} {fuel : Nat}

/-- The states that a machine can come to: it is new, or it is in the middle or at the end of a
routine of any kind that was started in such a state. -/
inductive Reachable : Machine → Prop where
  | new (tracing : Bool) : Reachable { tracing }
  | during {m : Machine} {α : Type} (routine : Routine α) {c : Configuration}
      (before : Reachable m) (reached : Reaches ⟨.routine routine, .top, m⟩ c) :
      Reachable c.machine

theorem Reachable.wellKeyed (reachable : Reachable m) : m.WellKeyed := by
  induction reachable with
  | new tracing => exact wellKeyed_new tracing
  | during routine _ reached keyed => exact reached.wellKeyed keyed

theorem Reachable.settled {α : Type} {routine : Routine α} {result : Except Fault α}
    (reachable : Reachable m) (settles : Settles (perform · routine) m result m') :
    Reachable m' :=
  .during routine reachable (settles.reaches (fun fuel => perform_agrees fuel routine m) .top)

theorem perform_assignOperator (fuel : Nat) (symbol name : String) (m : Machine) :
    perform fuel (Routine.assignOperator symbol name) m =
      if symbol.length = 1 then .done () { m with operators := m.operators.insert symbol name }
      else .failed (.badAlias symbol) m := by
  rw [Routine.assignOperator, perform_ask, respond, assignOperator]
  split <;> rfl

/-- The operator comes first, so a bad one keeps the function out too. -/
theorem perform_addFunction_some (fuel : Nat) (symbol name : String) (body : Routine Unit)
    (m : Machine) :
    perform fuel (Routine.addFunction (some symbol) name body) m =
      if symbol.length = 1 then
        .done () ({ m with operators := m.operators.insert symbol name }.define name body)
      else .failed (.badAlias symbol) m := by
  refine (runWith_perform ..).trans ?_
  rw [respond, assignOperator]
  split <;> rfl

/-- With a symbol and a name on the stack, the word that binds operators does what assigning the
operator does, and only words the failure in its own way. -/
theorem perform_bindAlias (stack : m.stack = .string symbol :: .string name :: below) (fuel : Nat) :
    perform fuel Core.bindAlias m =
      (perform fuel (Routine.assignOperator symbol name) { m with stack := below }).mapFault
        fun _ => .language (.mismatch "single character" (.string symbol)) := by
  obtain ⟨_, _, _, _, _, _⟩ := m
  subst stack
  rw [perform_assignOperator]
  change perform fuel (if symbol.length = 1 then _ else _) _ = _
  split
  next single =>
    rw [perform_assignOperator, if_pos single]
    rfl
  next => rfl

theorem bindAlias_fault (failed : perform fuel Core.bindAlias m = .failed fault m') :
    ∃ cause, fault = .language cause := by
  change runWith _ _ (Demand.text.pop >>= fun symbol => Demand.text.pop >>= fun name => _) _ = _
    at failed
  rcases fault_of_runWith_pop_bind failed with complaint | ⟨symbol, later, failed⟩
  · exact complaint
  rcases fault_of_runWith_pop_bind failed with complaint | ⟨name, below, failed⟩
  · exact complaint
  split at failed
  next single =>
    have assigned := perform_assignOperator fuel symbol name { m with stack := below }
    rw [if_pos single] at assigned
    cases assigned.symm.trans failed
  next =>
    cases failed
    exact ⟨_, rfl⟩

/-- In every state that a machine can come to, operators are single characters. Any other symbol is
refused, by the machine and by the word that binds operators. -/
theorem operator_symbols_are_single_characters :
    (∀ m, Reachable m → m.WellKeyed) ∧
    (∀ {α : Type} (routine : Routine α) m result m', Reachable m →
      Settles (perform · routine) m result m' → Reachable m') ∧
    (∀ m symbol name body fuel,
      (perform fuel (Routine.assignOperator symbol name) m =
        if symbol.length = 1 then .done () { m with operators := m.operators.insert symbol name }
        else .failed (.badAlias symbol) m) ∧
      perform fuel (Routine.addFunction (some symbol) name body) m =
        if symbol.length = 1 then
          .done () ({ m with operators := m.operators.insert symbol name }.define name body)
        else .failed (.badAlias symbol) m) ∧
    (∀ m symbol name below fuel, m.stack = .string symbol :: .string name :: below →
      ((∃ m', perform fuel Core.bindAlias m = .done () m') ↔
        ∃ m', perform fuel (Routine.assignOperator symbol name) m = .done () m') ∧
      ∀ m', perform fuel Core.bindAlias m = .done () m' →
        perform fuel (Routine.assignOperator symbol name) { m with stack := below } =
          .done () m') ∧
    ∀ m fuel fault m', perform fuel Core.bindAlias m = .failed fault m' →
      ∀ symbol, fault ≠ .badAlias symbol := by
  refine ⟨fun m => Reachable.wellKeyed, fun routine m result m' => Reachable.settled, ?_, ?_, ?_⟩
  · intro m symbol name body fuel
    exact ⟨perform_assignOperator fuel symbol name m,
      perform_addFunction_some fuel symbol name body m⟩
  · intro m symbol name below fuel stack
    rw [perform_bindAlias stack, perform_assignOperator, perform_assignOperator]
    by_cases single : symbol.length = 1 <;> simp [single, Outcome.mapFault]
  · rintro m fuel fault m' failed symbol rfl
    obtain ⟨cause, same⟩ := bindAlias_fault failed
    cases same

/-- Registers a function, fails to register another, and forgets its own name before it fails. -/
def unsettle : Routine Unit := do
  Routine.addFunction (some "é") "late" (.done ())
  let _ ← (Routine.addFunction (some "ab") "never" (.done ())).attempt
  let _ ← Routine.ask (.forgetFunction "unsettle")
  Routine.push (.string "late")
  Routine.push (.string "éé")
  Core.bindAlias

/-- Registers that function and calls it. -/
def unsettling : Routine Unit := do
  Routine.addFunction (some "!") "unsettle" unsettle
  Routine.evaluate [.operator "!"]

/-- A call that is rolled back leaves its tables, and what it was refused is not there. -/
theorem operator_symbols_are_single_characters_unsettled :
    ∃ cause stack token m, Settles (perform · unsettling) { tracing := true }
        (.error (.evaluation cause stack token)) m ∧
      m.operators.keys = ["!", "é"] ∧ m.functions.keys = ["late"] ∧ m.WellKeyed ∧
      perform 1 (Routine.addFunction (some "ab") "late" (.done ())) m =
        .failed (.badAlias "ab") m ∧
      ∃ m', perform 1 Core.bindAlias { m with stack := [.string "ü", .string "late"] } =
        .done () m' ∧ m'.operators.find? "ü" = some "late" := by
  have ran : ∃ cause stack token m, Settles (perform · unsettling) { tracing := true }
        (.error (.evaluation cause stack token)) m ∧
      m.operators.keys = ["!", "é"] ∧ m.functions.keys = ["late"] :=
    ⟨_, _, _, _, ⟨3, rfl⟩, rfl, rfl⟩
  obtain ⟨cause, stack, token, m, settles, operators, functions⟩ := ran
  obtain ⟨keyed, left, assigns, binds, _⟩ := operator_symbols_are_single_characters
  have reachable := left unsettling _ _ m (.new true) settles
  refine ⟨cause, stack, token, m, settles, operators, functions, keyed m reachable, ?_, ?_⟩
  · exact (assigns m "ab" "late" (.done ()) 1).2
  · obtain ⟨taken, same⟩ :=
      binds { m with stack := [.string "ü", .string "late"] } "ü" "late" [] 1 rfl
    obtain ⟨m', bound⟩ := taken.mpr ⟨_, (assigns _ "ü" "late" (.done ()) 1).1⟩
    have assigned := same m' bound
    rw [(assigns _ "ü" "late" (.done ()) 1).1] at assigned
    cases assigned
    exact ⟨_, bound, Table.find?_insert_self⟩

end Machine

end Cairn
