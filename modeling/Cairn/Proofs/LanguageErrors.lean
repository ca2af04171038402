import Cairn.Proofs.CompletedTokens
import Cairn.Proofs.DirectRoutines
import Cairn.Proofs.Resolution

set_option autoImplicit false

/-!
# Failures of core programs

What can go wrong in a session with the core library. Every function is a direct routine, whatever
was defined, also by runs that failed. So a failure inside a run is one of the language, and it
leaves the run at the operator of the source that it happened in.
-/

namespace Cairn

/-- All functions are direct. -/
def Machine.Plain (deep : Bool) (m : Machine) : Prop :=
  ∀ e ∈ m.functions.entries, e.2.Obeys (.direct deep)

theorem Machine.Plain.define {deep : Bool} {m : Machine} {body : Routine Unit}
    (plain : m.Plain deep) (name : String) (direct : body.Obeys (.direct deep)) :
    (m.define name body).Plain deep := by
  intro e member
  rcases Table.mem_insert member with old | rfl
  · exact plain e old
  · exact direct

namespace Outcome

variable {α β : Type} {deep : Bool} {o : Outcome α}

/-- An outcome that leaves plain functions, and a failure of the language if it fails. -/
def Conforms (deep : Bool) : Outcome α → Prop
  | .done _ m => m.Plain deep
  | .failed fault m => m.Plain deep ∧ fault.OfLanguage
  | .exhausted => True

theorem Conforms.plain {a : α} {m : Machine} (conforms : o.Conforms deep) (ran : o = .done a m) :
    m.Plain deep := by
  subst ran
  exact conforms

theorem Conforms.mapFault {f : Fault → Fault}
    (kept : ∀ fault : Fault, fault.OfLanguage → (f fault).OfLanguage)
    (conforms : o.Conforms deep) : (o.mapFault f).Conforms deep := by
  cases o with
  | done a m => exact conforms
  | failed fault m => exact ⟨conforms.1, kept fault conforms.2⟩
  | exhausted => trivial

/-- A part, and what goes on from its success and passes its failure on. -/
theorem Conforms.andThen {later : Except Fault α → Machine → Outcome β}
    (conforms : o.Conforms deep)
    (passes : ∀ fault m, later (.error fault) m = .failed fault m)
    (goesOn : ∀ a m, m.Plain deep → (later (.ok a) m).Conforms deep) :
    (o.andThen later).Conforms deep := by
  cases o with
  | done a m => exact goesOn a m conforms
  | failed fault m =>
    rw [andThen, passes]
    exact conforms
  | exhausted => trivial

end Outcome

namespace Configuration

variable {α : Type} {deep : Bool} {m m' : Machine} {fault : Fault}
  {exec : Value → Action Unit} {n k : Nat}

theorem ofLanguage_withToken (token : Option Value) (fault : Fault) (language : fault.OfLanguage) :
    (fault.withToken token).OfLanguage := by
  cases fault <;> exact language

theorem ofLanguage_bareCause (fault : Fault) (language : fault.OfLanguage) :
    (Machine.bareCause fault).OfLanguage := by
  cases fault <;> exact language

theorem ofLanguage_leaving (stack : List Value) (fault : Fault) (language : fault.OfLanguage) :
    (Machine.leaving stack fault).OfLanguage := by
  obtain ⟨cause, caused⟩ := Option.isSome_iff_exists.mp language
  rw [Machine.leaving, caused]
  rfl

theorem Answers.plain {request : Request} {result : Except Fault request.Reply}
    (answers : Answers m request result m') (plain : m.Plain deep) : m'.Plain deep := by
  cases answers with
  | trace message => simpa [Machine.Plain] using plain
  | forgetFunction name => exact fun e member => plain e (List.mem_of_mem_filter member)
  | _ => exact plain

/-- A request that runs nothing fails with a bare cause, at a text that cannot be read, or at a
symbol that is not a single character. -/
theorem fault_of_respond {request : Request} (isLocal : request.nests = false)
    (failed : Machine.respond exec request m = .failed fault m') :
    (∃ cause, fault = .language cause) ∨
    (∃ source cause offset, request = .parse source ∧ fault = .reading cause offset) ∨
    ∃ symbol name, request = .assignOperator symbol name ∧ symbol.length ≠ 1 ∧
      fault = .badAlias symbol := by
  cases request with
  | evaluate tokens => exact absurd isLocal (by simp [Request.nests])
  | invoke value => exact absurd isLocal (by simp [Request.nests])
  | pop =>
    simp only [Machine.respond, Machine.pop] at failed
    split at failed <;> cases failed
    exact .inl ⟨_, rfl⟩
  | valueAt index =>
    simp only [Machine.respond, Machine.valueAt] at failed
    split at failed <;> cases failed
    exact .inl ⟨_, rfl⟩
  | storeAt index value =>
    simp only [Machine.respond, Machine.storeAt] at failed
    split at failed <;> cases failed
    exact .inl ⟨_, rfl⟩
  | assignOperator symbol name =>
    simp only [Machine.respond, Machine.assignOperator] at failed
    split at failed <;> cases failed
    next several => exact .inr (.inr ⟨symbol, name, rfl, several, rfl⟩)
  | parse source =>
    simp only [Machine.respond, Machine.parse] at failed
    split at failed <;> cases failed
    exact .inr (.inl ⟨source, _, _, rfl, rfl⟩)
  | _ => cases failed

/-- A permitted request that runs nothing fails with a failure of the language. -/
theorem ofLanguage_of_respond {request : Request} (isLocal : request.nests = false)
    (permitted : request.Permitted deep)
    (failed : Machine.respond exec request m = .failed fault m') : fault.OfLanguage := by
  rcases fault_of_respond isLocal failed with
    ⟨cause, rfl⟩ | ⟨source, cause, offset, rfl, rfl⟩ | ⟨symbol, name, rfl, several, rfl⟩
  · rfl
  · rfl
  · exact absurd permitted several

/-- References and blocks keep functions plain and fail in the language only. -/
def Sound (deep : Bool) (exec : Value → Action Unit) : Prop :=
  ∀ value m, m.Plain deep → (exec value m).Conforms deep

theorem evaluateWith_conforms (sound : Sound deep exec) (tokens : List Value) (m : Machine)
    (plain : m.Plain deep) : (Machine.evaluateWith exec tokens m).Conforms deep := by
  fun_induction Machine.evaluateWith exec tokens m with
  | case1 m => exact plain
  | case2 symbol rest m token absent => exact ⟨plain, rfl⟩
  | case3 symbol rest m name present _ m' ran inductionHypothesis =>
    have conforms := sound (.function name) m plain
    rw [ran] at conforms
    exact inductionHypothesis conforms
  | case4 symbol rest m token name present fault m' ran =>
    have conforms := sound (.function name) m plain
    rw [ran] at conforms
    exact ⟨conforms.1, ofLanguage_withToken _ fault conforms.2⟩
  | case5 symbol rest m name present ran => trivial
  | case6 value rest m literal inductionHypothesis => exact inductionHypothesis plain

theorem respond_conforms (sound : Sound deep exec) {request : Request}
    (permitted : request.Permitted deep) (m : Machine) (plain : m.Plain deep) :
    (Machine.respond exec request m).Conforms deep := by
  cases nested : request.nests with
  | false =>
    obtain ⟨result, m', answered, _⟩ := step_perform_local nested exec .ofExcept .top m
    have kept := (answers_of_respond nested answered).plain plain
    rw [answered]
    cases result with
    | ok reply => exact kept
    | error fault => exact ⟨kept, ofLanguage_of_respond nested permitted answered⟩
  | true =>
    cases request with
    | evaluate tokens => exact evaluateWith_conforms sound tokens m plain
    | invoke value => exact (sound value m plain).mapFault ofLanguage_bareCause
    | _ => exact absurd nested (by simp [Request.nests])

theorem iterate_conforms {action : Action Bool}
    (runs : ∀ m, m.Plain deep → (action m).Conforms deep) (k : Nat) (m : Machine)
    (plain : m.Plain deep) : (Machine.iterate action k m).Conforms deep := by
  induction k generalizing m with
  | zero => trivial
  | succ k inductionHypothesis =>
    have conforms := runs m plain
    rw [Machine.iterate]
    split
    next m' ran =>
      rw [ran] at conforms
      exact inductionHypothesis m' conforms
    next m' ran =>
      rw [ran] at conforms
      exact conforms
    next fault m' ran =>
      rw [ran] at conforms
      exact conforms
    next => trivial

theorem runWith_conforms (sound : Sound deep exec) {routine : Routine α}
    (direct : routine.Obeys (.direct deep)) (m : Machine) (plain : m.Plain deep) :
    (Machine.runWith exec n routine m).Conforms deep := by
  induction routine generalizing m with
  | done a => exact plain
  | fail fault => exact ⟨plain, direct⟩
  | perform request next inductionHypothesis =>
    obtain ⟨permitted, passes, goesOn⟩ := direct
    rw [runWith_perform]
    apply (respond_conforms sound permitted m plain).andThen
    · intro fault m'
      rw [passes]
      rfl
    · intro reply m' plain'
      exact inductionHypothesis (.ok reply) (goesOn reply (request.brings_true reply)) m' plain'
  | define name body next _ inductionHypothesis =>
    obtain ⟨_, bodyDirect, goesOn⟩ := direct
    exact inductionHypothesis goesOn _ (plain.define name bodyDirect)
  | iterate round next roundHypothesis inductionHypothesis =>
    obtain ⟨roundDirect, passes, goesOn⟩ := direct
    rw [runWith_iterate]
    apply (iterate_conforms (roundHypothesis roundDirect) n m plain).andThen
    · intro fault m'
      rw [passes]
      rfl
    · intro _ m' plain'
      exact inductionHypothesis (.ok ()) goesOn m' plain'

theorem callWith_conforms (sound : Sound deep exec) (name : String) (m : Machine)
    (plain : m.Plain deep) : (Machine.callWith exec n name m).Conforms deep := by
  rw [Machine.callWith]
  split
  next => exact ⟨plain, rfl⟩
  next body registered =>
    have traced : (m.trace ("call " ++ name)).Plain deep := by simpa [Machine.Plain] using plain
    have conforms : (Machine.runWith exec n body (m.trace ("call " ++ name))).Conforms deep :=
      runWith_conforms sound (plain _ (Table.mem_of_find? registered)) _ traced
    -- A failed call puts back the stack only, so the functions stay what they are.
    split
    next a m' ran =>
      rw [ran] at conforms
      exact conforms
    next fault m' ran =>
      rw [ran] at conforms
      refine ⟨?_, ofLanguage_leaving m'.stack fault conforms.2⟩
      simpa [Machine.Plain] using conforms.1
    next => trivial

theorem exec_sound (deep : Bool) (fuel : Nat) : Sound deep (Machine.exec fuel) := by
  induction fuel with
  | zero => exact fun _ _ _ => trivial
  | succ fuel inductionHypothesis =>
    intro value m plain
    cases value with
    | function name => exact callWith_conforms inductionHypothesis name m plain
    | block body =>
      have conforms := evaluateWith_conforms inductionHypothesis body m plain
      exact conforms.mapFault (ofLanguage_withToken none)
    | _ => exact ⟨plain, rfl⟩

end Configuration

namespace Machine

open Cairn.Configuration

variable {deep tracing : Bool} {m m' created : Machine} {source : String}
  {result : Except Fault Unit} {fuel : Nat}

theorem perform_unique {α : Type} {routine : Routine α} {first second : Except Fault α}
    {before after : Machine} (once : Settles (perform · routine) m first before)
    (again : Settles (perform · routine) m second after) : first = second ∧ before = after :=
  Settles.unique (fun fuel => perform_agrees fuel routine m) once again

theorem settles_of_core (installed : core fuel tracing = .done () m) :
    Settles (perform · Core.plugin.install) { tracing := tracing } (.ok ()) m :=
  ⟨fuel, installed⟩

/-- The functions that the core library defines in the language. -/
def preludeFunctions : List (String × Routine Unit) := [
  ("sq", Core.runBlock [.operator "d", .operator "*"]),
  ("inc", Core.runBlock [.number 1, .operator "+"]),
  ("dec", Core.runBlock [.number 1, .operator "-"])]

set_option maxRecDepth 10000 in
theorem exists_core (tracing : Bool) : ∃ fuel m, core fuel tracing = .done () m ∧
    m.functions.entries = Core.words.map (fun e => (e.1, e.2.body)) ++ preludeFunctions ∧
    m.stack = [] ∧ m.output = #[] := by
  cases tracing <;> exact ⟨5, _, rfl, rfl, rfl, rfl⟩

theorem functions_of_core (installed : core fuel tracing = .done () m) :
    m.functions.entries = Core.words.map (fun e => (e.1, e.2.body)) ++ preludeFunctions := by
  obtain ⟨enough, computed, ran, functions, _⟩ := exists_core tracing
  obtain ⟨_, rfl⟩ := perform_unique (settles_of_core ran) (settles_of_core installed)
  exact functions

theorem stack_of_core (installed : core fuel tracing = .done () m) : m.stack = [] := by
  obtain ⟨enough, computed, ran, _, stack, _⟩ := exists_core tracing
  obtain ⟨_, rfl⟩ := perform_unique (settles_of_core ran) (settles_of_core installed)
  exact stack

theorem output_of_core (installed : core fuel tracing = .done () m) : m.output = #[] := by
  obtain ⟨enough, computed, ran, _, _, output⟩ := exists_core tracing
  obtain ⟨_, rfl⟩ := perform_unique (settles_of_core ran) (settles_of_core installed)
  exact output

theorem core_ne_failed {fault : Fault} : core fuel tracing ≠ .failed fault m := by
  intro failed
  obtain ⟨enough, computed, ran, _⟩ := exists_core tracing
  have failing : Settles (perform · Core.plugin.install) { tracing := tracing } (.error fault) m :=
    ⟨fuel, failed⟩
  cases (perform_unique (settles_of_core ran) failing).1

/-- The functions of a new session are direct; without two of them none looks at the whole stack. -/
theorem plain_of_core (installed : core fuel tracing = .done () m) {e : String × Routine Unit}
    (member : e ∈ m.functions.entries)
    (shallow : deep = false → e.1 ≠ "size" ∧ e.1 ≠ "clear") : e.2.Obeys (.direct deep) := by
  rw [functions_of_core installed, List.mem_append, List.mem_map] at member
  rcases member with ⟨entry, member, rfl⟩ | member
  · exact Core.direct_words entry member shallow
  · simp only [preludeFunctions, List.mem_cons, List.not_mem_nil, or_false] at member
    rcases member with rfl | rfl | rfl <;> exact Core.direct_runBlock _

theorem perform_ask (fuel : Nat) (request : Request) (m : Machine) :
    perform fuel (Routine.ask request) m = respond (exec fuel) request m := by
  rw [perform, Routine.ask, runWith_perform]
  cases respond (exec fuel) request m <;> rfl

/-- A run reads the whole text before it evaluates anything. -/
theorem run_eq (fuel : Nat) (source : String) (m : Machine) :
    run fuel source m =
      match read m.isOperator source with
      | .ok reading => evaluate fuel reading.tokens m
      | .error error => .failed (.reading error.cause (some error.offset)) m := by
  have opened : run fuel source m = ((respond (exec fuel) (.parse source) m).andThen
      fun result => perform fuel ((Routine.ofExcept result).bind fun reading =>
        Routine.evaluate reading.tokens)) := runWith_perform ..
  rw [opened, respond, parse]
  cases read m.isOperator source with
  | error error => rfl
  | ok reading => exact perform_ask fuel (.evaluate reading.tokens) m

theorem run_conforms (fuel : Nat) (source : String) (m : Machine) (plain : m.Plain deep) :
    (run fuel source m).Conforms deep :=
  runWith_conforms (exec_sound deep fuel) (Routine.direct_run source) m plain

theorem Later.plain (session : Later m m') (plain : m.Plain deep) : m'.Plain deep := by
  induction session with
  | refl => exact plain
  | @run m' m'' source result session ran inductionHypothesis =>
    obtain ⟨fuel, ran⟩ := ran
    have conforms := run_conforms fuel source m' inductionHypothesis
    replace ran : Machine.run fuel source m' = .settled result m'' := ran
    rw [ran] at conforms
    cases result with
    | ok _ => exact conforms
    | error fault => exact conforms.1

/-- A run of a session ends with success or with a failure of the language. A text that cannot be
read changes nothing; a failure after that names an operator of the source. -/
theorem core_session_fails_with_language_errors
    (installed : core fuel tracing = .done () created) (session : Later created m)
    (ran : Settles (run · source) m result m') :
    (∃ error, read m.isOperator source = .error error ∧
      result = .error (.reading error.cause (some error.offset)) ∧ m' = m) ∨
    ∃ reading, read m.isOperator source = .ok reading ∧
      (result = .ok () ∨
      ∃ cause stack symbol, .operator symbol ∈ reading.tokens ∧
        result = .error (.evaluation cause stack (some (.operator symbol)))) := by
  have plain : m.Plain true :=
    session.plain fun e member => plain_of_core installed member (by simp)
  obtain ⟨fuel, ran⟩ := ran
  change run fuel source m = .settled result m' at ran
  have conforms := run_conforms fuel source m plain
  rw [ran] at conforms
  rw [run_eq] at ran
  split at ran
  next reading readable =>
    refine .inr ⟨reading, readable, ?_⟩
    cases result with
    | ok _ => exact .inl rfl
    | error fault =>
      right
      -- The operator that failed puts its token on a failure of the language, and there is no
      -- other.
      have fails : Fails reading.tokens m fault m' := ⟨fuel, ran⟩
      obtain ⟨before, symbol, rest, middle, tokens, _, failure⟩ := fails.exists_operator
      rcases failure.operator_fault with ⟨cause, stack, rfl⟩ | ⟨thrown, thrownBy⟩
      · exact ⟨cause, stack, symbol, by simp [tokens], rfl⟩
      · have language := conforms.2
        rw [Fault.OfLanguage, thrownBy.voiced, Fault.cause?_voiced, thrownBy.foreign] at language
        cases language
  next error unreadable =>
    obtain ⟨rfl, rfl⟩ := Outcome.failed_eq_settled.mp ran
    exact .inl ⟨error, unreadable, rfl, rfl⟩

/-- Registers a function that tries to bind two characters, and an operator for it. -/
def bindingTwo : String := "\x7b\"sq\" \"aa\" @\x7d \"two\" # \"two\" \"b\" @"

/-- A bad alias in a function, which a block calls that is itself run by an operator. -/
theorem core_session_fails_with_language_errors_nested :
    ∃ created m fault m', core 5 false = .done () created ∧ Later created m ∧
      Settles (run · "1\x7bb\x7dx") m (.error fault) m' ∧
      ∃ reading cause stack symbol, read m.isOperator "1\x7bb\x7dx" = .ok reading ∧
        .operator symbol ∈ reading.tokens ∧
        fault = .evaluation cause stack (some (.operator symbol)) := by
  have computed : (match core 5 false with
      | .done _ created =>
        match run 5 bindingTwo created with
        | .done _ m =>
          match run 6 "1\x7bb\x7dx" m with
          | .failed fault _ =>
            fault.cause?.isSome && (read m.isOperator "1\x7bb\x7dx").isOk
          | _ => false
        | _ => false
      | _ => false) = true := by decide +kernel
  split at computed
  next created installed =>
    split at computed
    next m defined =>
      have bound : Settles (run · bindingTwo) created (.ok ()) m := ⟨5, defined⟩
      have session : Later created m := .run (.refl created) bound
      split at computed
      next fault m' failed =>
        have ran : Settles (run · "1\x7bb\x7dx") m (.error fault) m' := ⟨6, failed⟩
        obtain ⟨language, readable⟩ := Bool.and_eq_true_iff.mp computed
        refine ⟨created, m, fault, m', installed, session, ran, ?_⟩
        rcases core_session_fails_with_language_errors installed session ran with
          ⟨_, unread, _⟩ | ⟨reading, read, success | ⟨cause, stack, symbol, named⟩⟩
        · rw [unread] at readable
          cases readable
        · cases success
        · exact ⟨reading, cause, stack, symbol, read, named.1, Except.error.inj named.2⟩
      next => cases computed
    next => cases computed
  next => cases computed

end Machine

end Cairn
