import Cairn.Machine.Basic

set_option autoImplicit false

/-!
Evaluation. A token list pushes its literals and calls its operators in turn; tokens that already
ran keep their effect when a later one fails. A call that fails puts the stack back to where the
call started and nothing else: tables, output and trace stay as they are at the failure. A failure
of the language leaves a call as a failed evaluation, gets the top-level token that failed at
`evaluate`, and reaches a native function through `invoke` as its bare cause.

Programs need not end, so evaluation runs on fuel, which bounds both the nesting of calls and the
rounds of a loop. Running out is an outcome of its own and no failure.
-/

namespace Cairn

inductive Outcome (α : Type) : Type 1 where
  | done (value : α) (machine : Machine)
  | failed (fault : Fault) (machine : Machine)
  | exhausted

namespace Outcome

variable {α β : Type}

def bind (o : Outcome α) (f : α → Machine → Outcome β) : Outcome β :=
  match o with
  | .done a m => f a m
  | .failed fault m => .failed fault m
  | .exhausted => .exhausted

def mapFault (f : Fault → Fault) : Outcome α → Outcome α
  | .done a m => .done a m
  | .failed fault m => .failed (f fault) m
  | .exhausted => .exhausted

/-- The outcome of an operation that leaves the machine as it is when it fails. -/
def ofExcept (m : Machine) : Except Fault (α × Machine) → Outcome α
  | .ok (a, m') => .done a m'
  | .error fault => .failed fault m

end Outcome

/-- A computation on a machine. -/
def Action (α : Type) : Type 1 := Machine → Outcome α

namespace Action

variable {α β : Type}

def pure (a : α) : Action α := fun m => .done a m

def bind (x : Action α) (f : α → Action β) : Action β := fun m => (x m).bind f

instance : Monad Action where
  pure := pure
  bind := bind

def fail (fault : Fault) : Action α := fun m => .failed fault m

/-- Runs an action and answers its result or its failure. -/
def attempt (x : Action α) : Action (Except Fault α) := fun m =>
  match x m with
  | .done a m' => .done (.ok a) m'
  | .failed fault m' => .done (.error fault) m'
  | .exhausted => .exhausted

/-- A look at the machine. -/
def inspect (f : Machine → α) : Action α := fun m => .done (f m) m

end Action

namespace Machine

/-- Evaluates tokens in turn; `exec` runs a function reference. -/
def evaluateWith (exec : Value → Action Unit) : List Value → Action Unit
  | [], m => .done () m
  | .operator symbol :: rest, m =>
    let token := Value.operator symbol
    match m.operators.find? symbol with
    | none => .failed (.evaluation (.unknownSymbol symbol) m.stack (some token)) m
    | some name =>
      match exec (.function name) m with
      | .done _ m' => evaluateWith exec rest m'
      | .failed fault m' => .failed (fault.withToken (some token)) m'
      | .exhausted => .exhausted
  | value :: rest, m => evaluateWith exec rest (m.push value)

/-- What a failed evaluation is to the native function that asked for it. -/
def bareCause : Fault → Fault
  | .evaluation c _ _ => .language c
  | fault => fault

/-- Runs a function reference or a block for a native function. -/
def invokeWith (exec : Value → Action Unit) (value : Value) : Action Unit := fun m =>
  (exec value m).mapFault bareCause

/-- Answers a request; `exec` runs function references and blocks. -/
def respond (exec : Value → Action Unit) : (request : Request) → Action request.Reply
  | .view, m => .done m.view m
  | .log, m => .done m.log m
  | .push value, m => .done () (m.push value)
  | .pop, m => .ofExcept m m.pop
  | .valueAt index, m => .ofExcept m ((m.valueAt index).map (·, m))
  | .storeAt index value, m => .ofExcept m ((m.storeAt index value).map ((), ·))
  | .clear, m => .done () m.clear
  | .emit text, m => .done () (m.emit text)
  | .trace message, m => .done () (m.trace message)
  | .assignOperator symbol name, m => .ofExcept m ((m.assignOperator symbol name).map ((), ·))
  | .forgetFunction name, m => .done (m.forgetFunction name).1 (m.forgetFunction name).2
  | .forgetOperator symbol, m => .done (m.forgetOperator symbol).1 (m.forgetOperator symbol).2
  | .parse source, m => .ofExcept m ((m.parse source).map (·, m))
  | .evaluate tokens, m => evaluateWith exec tokens m
  | .invoke value, m => invokeWith exec value m

/-- Runs a round until it answers false, at most `fuel` times. -/
def iterate (round : Action Bool) : (fuel : Nat) → Action Unit
  | 0, _ => .exhausted
  | fuel + 1, m =>
    match round m with
    | .done true m' => iterate round fuel m'
    | .done false m' => .done () m'
    | .failed fault m' => .failed fault m'
    | .exhausted => .exhausted

/-- Runs a routine; `fuel` bounds the rounds of its loops. -/
def runWith (exec : Value → Action Unit) (fuel : Nat) {α : Type} : Routine α → Action α
  | .done a, m => .done a m
  | .fail fault, m => .failed fault m
  | .perform request next, m =>
    match respond exec request m with
    | .done reply m' => runWith exec fuel (next (.ok reply)) m'
    | .failed fault m' => runWith exec fuel (next (.error fault)) m'
    | .exhausted => .exhausted
  | .define name body next, m => runWith exec fuel next (m.define name body)
  | .iterate round next, m =>
    match iterate (runWith exec fuel round) fuel m with
    | .done _ m' => runWith exec fuel (next (.ok ())) m'
    | .failed fault m' => runWith exec fuel (next (.error fault)) m'
    | .exhausted => .exhausted

/-- How a failure leaves a call: one of the language as a failed evaluation with the stack the
call left, any other unchanged if its text could be noted. -/
def leaving (stack : List Value) (fault : Fault) : Fault :=
  match fault.cause? with
  | some cause => .evaluation cause stack none
  | none => fault.voiced

/-- Puts the stack back and notes the text of the failure, if it has one. -/
def rollback (name : String) (before : List Value) (fault : Fault) (m : Machine) : Machine :=
  match fault.text with
  | .ok text => { m with stack := before }.trace ("rollback " ++ name ++ ": " ++ text)
  | .error _ => { m with stack := before }

/-- Calls a function by name. The function is looked up once, so it may redefine itself. -/
def callWith (exec : Value → Action Unit) (fuel : Nat) (name : String) : Action Unit := fun m =>
  match m.functions.find? name with
  | none => .failed (.evaluation (.unknownFunction name) m.stack none) m
  | some body =>
    let before := m.stack
    match runWith exec fuel body (m.trace ("call " ++ name)) with
    | .done _ m' => .done () m'
    | .failed fault m' => .failed (leaving m'.stack fault) (m'.rollback name before fault)
    | .exhausted => .exhausted

/-- Runs a function reference or a block; no other value can run. -/
def exec : (fuel : Nat) → Value → Action Unit
  | 0, _, _ => .exhausted
  | fuel + 1, .function name, m => callWith (exec fuel) fuel name m
  | fuel + 1, .block body, m => (evaluateWith (exec fuel) body m).mapFault (.withToken none)
  | _ + 1, value, m => .failed (.evaluation (.mismatch "macro/function" value) m.stack none) m

/-- Runs a routine as a native function outside of any call. -/
def perform (fuel : Nat) {α : Type} (routine : Routine α) : Action α :=
  runWith (exec fuel) fuel routine

def evaluate (fuel : Nat) (tokens : List Value) : Action Unit := evaluateWith (exec fuel) tokens

def invoke (fuel : Nat) (value : Value) : Action Unit := invokeWith (exec fuel) value

/-- Reads and evaluates a source text. -/
def run (fuel : Nat) (source : String) : Action Unit := perform fuel (Routine.run source)

end Machine

end Cairn
