import Cairn.Machine.Evaluation

set_option autoImplicit false

/-!
# Steps

Evaluation one step at a time, without fuel. A configuration is what runs, what waits for its
result and the machine; its frames keep the tokens still to come of every active list, the stack
that every active call goes back to when it fails, and the rest of every native function that
asked for the part that runs. Steps are deterministic, and a run that ends fits in any larger
number of steps.
-/

namespace Cairn

universe u v

/-- A request that runs tokens or a value before it is answered. -/
def Request.nests : Request → Bool
  | .evaluate _ | .invoke _ => true
  | _ => false

/-- The outcome of an evaluation that has ended. -/
def Outcome.settled {α : Type} : Except Fault α → Machine → Outcome α
  | .ok a, m => .done a m
  | .error fault, m => .failed fault m

namespace Outcome

variable {α : Type} {m m' : Machine} {result : Except Fault α}

@[simp]
theorem done_eq_settled {a : α} : done a m = settled result m' ↔ result = .ok a ∧ m' = m := by
  cases result <;> simp [settled, eq_comm]

@[simp]
theorem failed_eq_settled {fault : Fault} :
    failed fault m = settled result m' ↔ result = .error fault ∧ m' = m := by
  cases result <;> simp [settled, eq_comm]

theorem ofExcept_eq_settled {answer : Except Fault (α × Machine)} :
    ofExcept m answer = settled result m' ↔
      (∃ a, answer = .ok (a, m') ∧ result = .ok a) ∨
        ∃ fault, answer = .error fault ∧ result = .error fault ∧ m' = m := by
  cases answer with
  | ok pair =>
    obtain ⟨a, last⟩ := pair
    constructor
    · intro same
      obtain ⟨rfl, rfl⟩ := done_eq_settled.mp same
      exact .inl ⟨a, rfl, rfl⟩
    · rintro (⟨b, same, rfl⟩ | ⟨fault, absurd, _⟩)
      · cases same
        rfl
      · cases absurd
  | error fault => simp [ofExcept]

end Outcome

/-- What waits for a result, innermost first. -/
inductive Frames : Type → Type 1 where
  | top {α : Type} : Frames α
  /-- The operator that called and the tokens after it. -/
  | operator (symbol : String) (rest : List Value) (outer : Frames Unit) : Frames Unit
  | block (outer : Frames Unit) : Frames Unit
  /-- An active call, with the stack it started on. -/
  | call (name : String) (before : List Value) (outer : Frames Unit) : Frames Unit
  | evaluate {α : Type} (next : Except Fault Unit → Routine α) (outer : Frames α) : Frames Unit
  | invoke {α : Type} (next : Except Fault Unit → Routine α) (outer : Frames α) : Frames Unit
  | round {α : Type} (round : Routine Bool) (next : Except Fault Unit → Routine α)
      (outer : Frames α) : Frames Bool

/-- What runs: a list of tokens, a function reference or a block, or a native function. -/
inductive Work : Type → Type 1 where
  | tokens (list : List Value) : Work Unit
  | value (value : Value) : Work Unit
  | routine {α : Type} (routine : Routine α) : Work α

structure Configuration where
  {α : Type}
  work : Work α
  frames : Frames α
  machine : Machine

namespace Machine

@[simp] theorem trace_tracing (m : Machine) (message : String) :
    (m.trace message).tracing = m.tracing := by
  unfold trace
  split <;> rfl

@[simp] theorem trace_stack (m : Machine) (message : String) :
    (m.trace message).stack = m.stack := by
  unfold trace
  split <;> rfl

@[simp] theorem trace_functions (m : Machine) (message : String) :
    (m.trace message).functions = m.functions := by
  unfold trace
  split <;> rfl

@[simp] theorem trace_operators (m : Machine) (message : String) :
    (m.trace message).operators = m.operators := by
  unfold trace
  split <;> rfl

@[simp] theorem trace_output (m : Machine) (message : String) :
    (m.trace message).output = m.output := by
  unfold trace
  split <;> rfl

/-! A rollback changes the stack and the trace. -/

section Rollback

variable (name : String) (before : List Value) (fault : Fault) (m : Machine)

@[simp] theorem rollback_tracing : (m.rollback name before fault).tracing = m.tracing := by
  unfold rollback
  split <;> simp

@[simp] theorem rollback_stack : (m.rollback name before fault).stack = before := by
  unfold rollback
  split <;> simp

@[simp] theorem rollback_functions : (m.rollback name before fault).functions = m.functions := by
  unfold rollback
  split <;> simp

@[simp] theorem rollback_operators : (m.rollback name before fault).operators = m.operators := by
  unfold rollback
  split <;> simp

@[simp] theorem rollback_output : (m.rollback name before fault).output = m.output := by
  unfold rollback
  split <;> simp

end Rollback

/-! What the operations that can fail answer when they succeed. -/

variable {m m' : Machine}

theorem pop_eq_ok {value : Value} :
    m.pop = .ok (value, m') ↔
      ∃ below, m.stack = value :: below ∧ m' = { m with stack := below } := by
  unfold pop
  split
  next top below stack =>
    constructor
    · rintro ⟨⟩
      exact ⟨below, stack, rfl⟩
    · rintro ⟨rest, same, rfl⟩
      cases stack.symm.trans same
      rfl
  next stack => simp [stack]

theorem valueAt_eq_ok {index : Float} {value : Value} :
    m.valueAt index = .ok value ↔
      ∃ i, place? index m.stack.length = some i ∧ m.stack[i]? = some value := by
  unfold valueAt
  rw [← Option.bind_eq_some_iff]
  split
  next found present => simp [present]
  next absent => simp [absent]

theorem storeAt_eq_ok {index : Float} {value : Value} :
    m.storeAt index value = .ok m' ↔
      ∃ i, place? index m.stack.length = some i ∧ m' = { m with stack := m.stack.set i value } := by
  unfold storeAt
  split
  next i place => simp [place, eq_comm]
  next absent => simp [absent]

theorem assignOperator_eq_ok {symbol name : String} :
    m.assignOperator symbol name = .ok m' ↔
      symbol.length = 1 ∧ m' = { m with operators := m.operators.insert symbol name } := by
  unfold assignOperator
  split
  next single => simp [single, eq_comm]
  next several => simp [several]

theorem parse_eq_ok {source : String} {reading : Reading} :
    m.parse source = .ok reading ↔ read m.isOperator source = .ok reading := by
  unfold parse
  split
  next success => simp [success]
  next failure => simp [failure]

end Machine

namespace Configuration

/-- Hands a result to what waits for it. Nothing follows the outermost result. -/
def resume {α : Type} : Except Fault α → Frames α → Machine → Option Configuration
  | _, .top, _ => none
  | .ok _, .operator _ rest outer, m => some ⟨.tokens rest, outer, m⟩
  | .error fault, .operator symbol _ outer, m =>
    some ⟨.routine (.fail (fault.withToken (some (.operator symbol)))), outer, m⟩
  | .ok _, .block outer, m => some ⟨.routine (.done ()), outer, m⟩
  | .error fault, .block outer, m => some ⟨.routine (.fail (fault.withToken none)), outer, m⟩
  | .ok _, .call _ _ outer, m => some ⟨.routine (.done ()), outer, m⟩
  | .error fault, .call name before outer, m =>
    some ⟨.routine (.fail (Machine.leaving m.stack fault)), outer, m.rollback name before fault⟩
  | result, .evaluate next outer, m => some ⟨.routine (next result), outer, m⟩
  | result, .invoke next outer, m =>
    some ⟨.routine (next (result.mapError Machine.bareCause)), outer, m⟩
  | .ok true, .round round next outer, m => some ⟨.routine round, .round round next outer, m⟩
  | .ok false, .round _ next outer, m => some ⟨.routine (next (.ok ())), outer, m⟩
  | .error fault, .round _ next outer, m => some ⟨.routine (next (.error fault)), outer, m⟩

/-- Starts to answer a request. All but two are answered at once. -/
def ask {α : Type} : (request : Request) → (Except Fault request.Reply → Routine α) →
    Frames α → Machine → Option Configuration
  | .evaluate tokens, next, frames, m => some ⟨.tokens tokens, .evaluate next frames, m⟩
  | .invoke value, next, frames, m => some ⟨.value value, .invoke next frames, m⟩
  | request, next, frames, m =>
    match Machine.respond (fun _ _ => .exhausted) request m with
    | .done reply m' => some ⟨.routine (next (.ok reply)), frames, m'⟩
    | .failed fault m' => some ⟨.routine (next (.error fault)), frames, m'⟩
    | .exhausted => none

/-- The next configuration, if there is one. -/
def step : Configuration → Option Configuration
  | ⟨.tokens [], frames, m⟩ => some ⟨.routine (.done ()), frames, m⟩
  | ⟨.tokens (.operator symbol :: rest), frames, m⟩ =>
    match m.operators.find? symbol with
    | none =>
      let fault := .evaluation (.unknownSymbol symbol) m.stack (some (.operator symbol))
      some ⟨.routine (.fail fault), frames, m⟩
    | some name => some ⟨.value (.function name), .operator symbol rest frames, m⟩
  | ⟨.tokens (value :: rest), frames, m⟩ => some ⟨.tokens rest, frames, m.push value⟩
  | ⟨.value (.function name), frames, m⟩ =>
    match m.functions.find? name with
    | none => some ⟨.routine (.fail (.evaluation (.unknownFunction name) m.stack none)), frames, m⟩
    | some body => some ⟨.routine body, .call name m.stack frames, m.trace ("call " ++ name)⟩
  | ⟨.value (.block body), frames, m⟩ => some ⟨.tokens body, .block frames, m⟩
  | ⟨.value value, frames, m⟩ =>
    let fault := .evaluation (.mismatch "macro/function" value) m.stack none
    some ⟨.routine (.fail fault), frames, m⟩
  | ⟨.routine (.done a), frames, m⟩ => resume (.ok a) frames m
  | ⟨.routine (.fail fault), frames, m⟩ => resume (.error fault) frames m
  | ⟨.routine (.perform request next), frames, m⟩ => ask request next frames m
  | ⟨.routine (.define name body next), frames, m⟩ =>
    some ⟨.routine next, frames, m.define name body⟩
  | ⟨.routine (.iterate round next), frames, m⟩ =>
    some ⟨.routine round, .round round next frames, m⟩

/-- The configuration that hands a result to what waits for it. -/
def ending {α : Type} (frames : Frames α) (result : Except Fault α) (m : Machine) :
    Configuration :=
  ⟨.routine (Routine.ofExcept result), frames, m⟩

theorem step_operator {m : Machine} {symbol name : String}
    (known : m.operators.find? symbol = some name) (rest : List Value) (frames : Frames Unit) :
    step ⟨.tokens (.operator symbol :: rest), frames, m⟩ =
      some ⟨.value (.function name), .operator symbol rest frames, m⟩ := by
  simp only [step, known]

theorem step_literal {value : Value} (literal : ∀ symbol, value ≠ .operator symbol)
    (rest : List Value) (frames : Frames Unit) (m : Machine) :
    step ⟨.tokens (value :: rest), frames, m⟩ = some ⟨.tokens rest, frames, m.push value⟩ := by
  cases value with
  | operator symbol => exact absurd rfl (literal symbol)
  | _ => rfl

theorem step_call {m : Machine} {name : String} {body : Routine Unit}
    (registered : m.functions.find? name = some body) (frames : Frames Unit) :
    step ⟨.value (.function name), frames, m⟩ =
      some ⟨.routine body, .call name m.stack frames, m.trace ("call " ++ name)⟩ := by
  simp only [step, registered]

section Local

variable {α : Type} {exec : Value → Action Unit}

theorem respond_local {request : Request} (isLocal : request.nests = false)
    (exec' : Value → Action Unit) (m : Machine) :
    Machine.respond exec request m = Machine.respond exec' request m := by
  cases request with
  | evaluate tokens => exact absurd isLocal (by simp [Request.nests])
  | invoke value => exact absurd isLocal (by simp [Request.nests])
  | _ => rfl

theorem ofExcept_ne_exhausted (m : Machine) (result : Except Fault (α × Machine)) :
    Outcome.ofExcept m result ≠ .exhausted := by
  cases result <;> simp [Outcome.ofExcept]

theorem respond_local_ne_exhausted {request : Request} (isLocal : request.nests = false)
    (m : Machine) : Machine.respond exec request m ≠ .exhausted := by
  cases request <;>
    simp_all [Machine.respond, ofExcept_ne_exhausted, Request.nests]

/-- A request that runs nothing is answered in one step. -/
theorem step_perform_local {request : Request} (isLocal : request.nests = false)
    (exec : Value → Action Unit) (next : Except Fault request.Reply → Routine α)
    (frames : Frames α) (m : Machine) :
    ∃ result m', Machine.respond exec request m = .settled result m' ∧
      step ⟨.routine (.perform request next), frames, m⟩ =
        some ⟨.routine (next result), frames, m'⟩ := by
  have stepped : step ⟨.routine (.perform request next), frames, m⟩ =
      match Machine.respond exec request m with
      | .done reply m' => some ⟨.routine (next (.ok reply)), frames, m'⟩
      | .failed fault m' => some ⟨.routine (next (.error fault)), frames, m'⟩
      | .exhausted => none := by
    rw [respond_local isLocal fun _ _ => .exhausted]
    cases request with
    | evaluate tokens => exact absurd isLocal (by simp [Request.nests])
    | invoke value => exact absurd isLocal (by simp [Request.nests])
    | _ => rfl
  cases answered : Machine.respond exec request m with
  | done reply m' => exact ⟨.ok reply, m', rfl, by rw [stepped, answered]⟩
  | failed fault m' => exact ⟨.error fault, m', rfl, by rw [stepped, answered]⟩
  | exhausted => exact absurd answered (respond_local_ne_exhausted isLocal m)

end Local

/-- The answers to the requests that run nothing: a failure changes nothing, a success only what
was asked for. -/
inductive Answers (m : Machine) :
    (request : Request) → Except Fault request.Reply → Machine → Prop where
  | refuse (request : Request) (fault : Fault) : Answers m request (.error fault) m
  | view : Answers m .view (.ok m.view) m
  | log : Answers m .log (.ok m.log) m
  | push (value : Value) : Answers m (.push value) (.ok ()) (m.push value)
  | pop {value : Value} {below : List Value} (stack : m.stack = value :: below) :
      Answers m .pop (.ok value) { m with stack := below }
  | valueAt {index : Float} {value : Value} {i : Nat}
      (place : Machine.place? index m.stack.length = some i) (present : m.stack[i]? = some value) :
      Answers m (.valueAt index) (.ok value) m
  | storeAt {index : Float} (value : Value) {i : Nat}
      (place : Machine.place? index m.stack.length = some i) :
      Answers m (.storeAt index value) (.ok ()) { m with stack := m.stack.set i value }
  | clear : Answers m .clear (.ok ()) m.clear
  | emit (text : String) : Answers m (.emit text) (.ok ()) (m.emit text)
  | trace (message : String) : Answers m (.trace message) (.ok ()) (m.trace message)
  | assignOperator {symbol : String} (single : symbol.length = 1) (name : String) :
      Answers m (.assignOperator symbol name) (.ok ())
        { m with operators := m.operators.insert symbol name }
  | forgetFunction (name : String) :
      Answers m (.forgetFunction name) (.ok (m.forgetFunction name).1) (m.forgetFunction name).2
  | forgetOperator (symbol : String) :
      Answers m (.forgetOperator symbol) (.ok (m.forgetOperator symbol).1)
        (m.forgetOperator symbol).2
  | parse {source : String} {reading : Reading} (success : read m.isOperator source = .ok reading) :
      Answers m (.parse source) (.ok reading) m

theorem eq_ok_of_map_eq_ok {α : Type u} {β : Type v} {f : α → β} {answer : Except Fault α} {b : β}
    (mapped : answer.map f = .ok b) : ∃ a, answer = .ok a ∧ f a = b := by
  cases answer with
  | ok a => exact ⟨a, rfl, Except.ok.inj mapped⟩
  | error fault => cases mapped

/-- An operation that leaves the machine alone when it fails needs to be judged by its success. -/
theorem answers_of_ofExcept {request : Request} {m m' : Machine}
    {result : Except Fault request.Reply} {answer : Except Fault (request.Reply × Machine)}
    (success : ∀ reply last, answer = .ok (reply, last) → Answers m request (.ok reply) last)
    (answered : Outcome.ofExcept m answer = .settled result m') : Answers m request result m' := by
  rcases Outcome.ofExcept_eq_settled.mp answered with ⟨reply, done, rfl⟩ | ⟨fault, _, rfl, rfl⟩
  · exact success reply m' done
  · exact .refuse request fault

theorem answers_of_respond {exec : Value → Action Unit} {request : Request} {m m' : Machine}
    {result : Except Fault request.Reply} (isLocal : request.nests = false)
    (answered : Machine.respond exec request m = .settled result m') :
    Answers m request result m' := by
  cases request with
  | evaluate tokens => exact absurd isLocal (by simp [Request.nests])
  | invoke value => exact absurd isLocal (by simp [Request.nests])
  | pop =>
    apply answers_of_ofExcept _ answered
    intro value last popped
    obtain ⟨below, stack, rfl⟩ := Machine.pop_eq_ok.mp popped
    exact .pop stack
  | valueAt index =>
    apply answers_of_ofExcept _ answered
    intro value last mapped
    obtain ⟨found, taken, same⟩ := eq_ok_of_map_eq_ok mapped
    obtain ⟨i, place, present⟩ := Machine.valueAt_eq_ok.mp taken
    cases same
    exact .valueAt place present
  | storeAt index value =>
    apply answers_of_ofExcept _ answered
    intro _ last mapped
    obtain ⟨stored, taken, same⟩ := eq_ok_of_map_eq_ok mapped
    obtain ⟨i, place, rfl⟩ := Machine.storeAt_eq_ok.mp taken
    cases same
    exact .storeAt value place
  | assignOperator symbol name =>
    apply answers_of_ofExcept _ answered
    intro _ last mapped
    obtain ⟨assigned, taken, same⟩ := eq_ok_of_map_eq_ok mapped
    obtain ⟨single, rfl⟩ := Machine.assignOperator_eq_ok.mp taken
    cases same
    exact .assignOperator single name
  | parse source =>
    apply answers_of_ofExcept _ answered
    intro reading last mapped
    obtain ⟨parsed, taken, same⟩ := eq_ok_of_map_eq_ok mapped
    cases same
    exact .parse (Machine.parse_eq_ok.mp taken)
  | view =>
    obtain ⟨rfl, rfl⟩ := Outcome.done_eq_settled.mp answered
    exact .view
  | _ =>
    obtain ⟨rfl, rfl⟩ := Outcome.done_eq_settled.mp answered
    constructor

/-- The steps as rules: what each may start from and what it changes. -/
inductive Moves : Configuration → Configuration → Prop where
  | finish (frames : Frames Unit) (m : Machine) :
      Moves ⟨.tokens [], frames, m⟩ ⟨.routine (.done ()), frames, m⟩
  | unknown {symbol : String} {m : Machine} (absent : m.operators.find? symbol = none)
      (rest : List Value) (frames : Frames Unit) :
      Moves ⟨.tokens (.operator symbol :: rest), frames, m⟩
        ⟨.routine (.fail (.evaluation (.unknownSymbol symbol) m.stack (some (.operator symbol)))),
          frames, m⟩
  | operator {symbol name : String} {m : Machine} (known : m.operators.find? symbol = some name)
      (rest : List Value) (frames : Frames Unit) :
      Moves ⟨.tokens (.operator symbol :: rest), frames, m⟩
        ⟨.value (.function name), .operator symbol rest frames, m⟩
  | literal {value : Value} (literal : ∀ symbol, value ≠ .operator symbol) (rest : List Value)
      (frames : Frames Unit) (m : Machine) :
      Moves ⟨.tokens (value :: rest), frames, m⟩ ⟨.tokens rest, frames, m.push value⟩
  | call {name : String} {body : Routine Unit} {m : Machine}
      (registered : m.functions.find? name = some body) (frames : Frames Unit) :
      Moves ⟨.value (.function name), frames, m⟩
        ⟨.routine body, .call name m.stack frames, m.trace ("call " ++ name)⟩
  | block (body : List Value) (frames : Frames Unit) (m : Machine) :
      Moves ⟨.value (.block body), frames, m⟩ ⟨.tokens body, .block frames, m⟩
  | unregistered {name : String} {m : Machine} (absent : m.functions.find? name = none)
      (frames : Frames Unit) :
      Moves ⟨.value (.function name), frames, m⟩
        ⟨.routine (.fail (.evaluation (.unknownFunction name) m.stack none)), frames, m⟩
  | unfit {value : Value} (noFunction : ∀ name, value ≠ .function name)
      (noBlock : ∀ body, value ≠ .block body) (frames : Frames Unit) (m : Machine) :
      Moves ⟨.value value, frames, m⟩
        ⟨.routine (.fail (.evaluation (.mismatch "macro/function" value) m.stack none)), frames, m⟩
  | resume {α : Type} {result : Except Fault α} {frames : Frames α} {m : Machine}
      {c : Configuration} (resumed : resume result frames m = some c) :
      Moves (ending frames result m) c
  | evaluate {α : Type} (tokens : List Value) (next : Except Fault Unit → Routine α)
      (frames : Frames α) (m : Machine) :
      Moves ⟨.routine (.perform (.evaluate tokens) next), frames, m⟩
        ⟨.tokens tokens, .evaluate next frames, m⟩
  | invoke {α : Type} (value : Value) (next : Except Fault Unit → Routine α)
      (frames : Frames α) (m : Machine) :
      Moves ⟨.routine (.perform (.invoke value) next), frames, m⟩
        ⟨.value value, .invoke next frames, m⟩
  | answer {α : Type} {request : Request} (isLocal : request.nests = false)
      (next : Except Fault request.Reply → Routine α) (frames : Frames α) {m m' : Machine}
      {result : Except Fault request.Reply} (answered : Answers m request result m') :
      Moves ⟨.routine (.perform request next), frames, m⟩ ⟨.routine (next result), frames, m'⟩
  | define {α : Type} (name : String) (body : Routine Unit) (next : Routine α)
      (frames : Frames α) (m : Machine) :
      Moves ⟨.routine (.define name body next), frames, m⟩
        ⟨.routine next, frames, m.define name body⟩
  | iterate {α : Type} (round : Routine Bool) (next : Except Fault Unit → Routine α)
      (frames : Frames α) (m : Machine) :
      Moves ⟨.routine (.iterate round next), frames, m⟩
        ⟨.routine round, .round round next frames, m⟩

theorem moves_of_step {c c' : Configuration} (stepped : c.step = some c') : Moves c c' := by
  obtain ⟨work, frames, m⟩ := c
  cases work with
  | tokens list =>
    cases list with
    | nil => exact Option.some.inj stepped ▸ .finish frames m
    | cons value rest =>
      by_cases isOperator : ∃ symbol, value = .operator symbol
      · obtain ⟨symbol, rfl⟩ := isOperator
        cases found : m.operators.find? symbol with
        | none =>
          simp only [step, found] at stepped
          exact Option.some.inj stepped ▸ .unknown found rest frames
        | some name =>
          rw [step_operator found] at stepped
          exact Option.some.inj stepped ▸ .operator found rest frames
      · have literal : ∀ symbol, value ≠ .operator symbol := fun symbol same =>
          isOperator ⟨symbol, same⟩
        rw [step_literal literal] at stepped
        exact Option.some.inj stepped ▸ .literal literal rest frames m
  | value value =>
    cases value with
    | function name =>
      cases found : m.functions.find? name with
      | none =>
        simp only [step, found] at stepped
        exact Option.some.inj stepped ▸ .unregistered found frames
      | some body =>
        rw [step_call found] at stepped
        exact Option.some.inj stepped ▸ .call found frames
    | block body => exact Option.some.inj stepped ▸ .block body frames m
    | _ => exact Option.some.inj stepped ▸ .unfit (by simp) (by simp) frames m
  | routine r =>
    cases r with
    | done a =>
      have moves : Moves (ending frames (.ok a) m) c' := .resume stepped
      exact moves
    | fail fault =>
      have moves : Moves (ending frames (.error fault) m) c' := .resume stepped
      exact moves
    | perform request next =>
      cases nested : request.nests with
      | false =>
        obtain ⟨result, m', answered, stepped'⟩ :=
          step_perform_local nested (fun _ _ => .exhausted) next frames m
        rw [stepped'] at stepped
        have answers := answers_of_respond nested answered
        exact Option.some.inj stepped ▸ .answer nested next frames answers
      | true =>
        cases request with
        | evaluate tokens => exact Option.some.inj stepped ▸ .evaluate tokens next frames m
        | invoke value => exact Option.some.inj stepped ▸ .invoke value next frames m
        | _ => exact absurd nested (by simp [Request.nests])
    | define name body next => exact Option.some.inj stepped ▸ .define name body next frames m
    | iterate round next => exact Option.some.inj stepped ▸ .iterate round next frames m

/-- The configuration after a number of steps, if there are that many. -/
def advance : Nat → Configuration → Option Configuration
  | 0, c => some c
  | n + 1, c => c.step.bind (advance n)

/-- One configuration comes after another, or is it. -/
def Reaches (c c' : Configuration) : Prop := ∃ n, c.advance n = some c'

/-- At least a number of steps can be taken. -/
def Lasts (n : Nat) (c : Configuration) : Prop := ∃ c', c.advance n = some c'

variable {c c' c'' : Configuration} {n k : Nat}

theorem advance_add (n k : Nat) (c : Configuration) :
    c.advance (n + k) = (c.advance n).bind (advance k) := by
  induction n generalizing c with
  | zero => rw [Nat.zero_add]; rfl
  | succ n inductionHypothesis =>
    rw [Nat.succ_add]
    cases stepped : c.step with
    | none => simp [advance, stepped]
    | some c' => simp [advance, stepped, inductionHypothesis]

namespace Reaches

@[refl]
theorem refl (c : Configuration) : Reaches c c := ⟨0, rfl⟩

theorem trans (first : Reaches c c') (second : Reaches c' c'') : Reaches c c'' := by
  obtain ⟨n, first⟩ := first
  obtain ⟨k, second⟩ := second
  exact ⟨n + k, by rw [advance_add, first]; exact second⟩

theorem head (stepped : c.step = some c') (rest : Reaches c' c'') : Reaches c c'' := by
  obtain ⟨n, rest⟩ := rest
  exact ⟨n + 1, by rw [advance, stepped]; exact rest⟩

theorem tail (first : Reaches c c') (stepped : c'.step = some c'') : Reaches c c'' :=
  first.trans (.head stepped (.refl c''))

/-- What every step keeps, every run keeps. -/
theorem preserves {P : Configuration → Prop}
    (kept : ∀ {c c' : Configuration}, P c → c.step = some c' → P c')
    (reached : Reaches c c') (holds : P c) : P c' := by
  obtain ⟨n, reached⟩ := reached
  induction n generalizing c with
  | zero => exact Option.some.inj reached ▸ holds
  | succ n inductionHypothesis =>
    obtain ⟨middle, stepped, reached⟩ := Option.bind_eq_some_iff.mp reached
    exact inductionHypothesis (kept holds stepped) reached

end Reaches

namespace Lasts

theorem zero (c : Configuration) : Lasts 0 c := ⟨c, rfl⟩

theorem head (stepped : c.step = some c') (lasts : Lasts n c') : Lasts (n + 1) c := by
  obtain ⟨last, lasts⟩ := lasts
  exact ⟨last, by rw [advance, stepped]; exact lasts⟩

theorem of_le (le : n ≤ k) (lasts : Lasts k c) : Lasts n c := by
  obtain ⟨d, rfl⟩ := Nat.exists_eq_add_of_le le
  obtain ⟨last, lasts⟩ := lasts
  rw [advance_add] at lasts
  obtain ⟨middle, reached, _⟩ := Option.bind_eq_some_iff.mp lasts
  exact ⟨middle, reached⟩

theorem of_reaches (reached : Reaches c c') (lasts : Lasts n c') : Lasts n c := by
  obtain ⟨k, reached⟩ := reached
  obtain ⟨last, lasts⟩ := lasts
  refine of_le (Nat.le_add_left n k) ⟨last, ?_⟩
  rw [advance_add, reached]
  exact lasts

end Lasts

/-- A run that has ended takes no more steps. -/
theorem not_lasts_of_ended (reached : c.advance n = some c') (ended : c'.step = none) :
    ¬ Lasts (n + 1) c := by
  rintro ⟨last, lasts⟩
  rw [advance_add, reached] at lasts
  simp [advance, ended] at lasts

/-- A run has at most one end. -/
theorem Reaches.end_unique (first : Reaches c c') (ended : c'.step = none)
    (second : Reaches c c'') (ended' : c''.step = none) : c' = c'' := by
  obtain ⟨n, first⟩ := first
  obtain ⟨k, second⟩ := second
  have same : n = k := by
    rcases Nat.lt_trichotomy n k with less | equal | less
    · exact absurd (Lasts.of_le less ⟨c'', second⟩) (not_lasts_of_ended first ended)
    · exact equal
    · exact absurd (Lasts.of_le less ⟨c', first⟩) (not_lasts_of_ended second ended')
  subst same
  exact Option.some.inj (first.symm.trans second)

end Configuration

end Cairn
