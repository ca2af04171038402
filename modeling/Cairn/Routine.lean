import Cairn.Fault
import Cairn.Reading
import Cairn.Table

set_option autoImplicit false

/-!
Native functions as data. A routine is a tree of requests to the machine that runs it: it makes a
request, sees the answer or the failure, and goes on from there. So a native function can do
whatever a machine offers, catch failures included, and still be stored in a machine's own
tables and be reasoned about by induction.
-/

namespace Cairn

/-- What a routine can see of a machine: the stack, top first, the names of the functions and the
operators with the names they stand for, each in order of registration. -/
structure View where
  stack : List Value
  functions : List String
  operators : Table String

namespace View

def knows (v : View) (name : String) : Bool := v.functions.contains name

end View

/-- What a routine can ask of the machine that runs it. -/
inductive Request where
  | view
  | log
  | push (value : Value)
  | pop
  | valueAt (index : Float)
  | storeAt (index : Float) (value : Value)
  | clear
  | emit (text : String)
  | trace (message : String)
  | assignOperator (symbol name : String)
  | forgetFunction (name : String)
  | forgetOperator (symbol : String)
  | parse (source : String)
  | evaluate (tokens : List Value)
  | invoke (value : Value)

/-- What the machine answers when a request succeeds. -/
@[reducible] def Request.Reply : Request → Type
  | .view => View
  | .log => Array String
  | .pop | .valueAt _ => Value
  | .forgetFunction _ | .forgetOperator _ => Bool
  | .parse _ => Reading
  | .push _ | .storeAt .. | .clear | .emit _ | .trace _ | .assignOperator .. | .evaluate _
  | .invoke _ => Unit

inductive Routine : Type → Type 1 where
  | done {α : Type} (value : α) : Routine α
  | fail {α : Type} (fault : Fault) : Routine α
  | perform {α : Type} (request : Request) (next : Except Fault request.Reply → Routine α) :
      Routine α
  /-- Registers a function under a name, in the place of an older one of that name. -/
  | define {α : Type} (name : String) (body : Routine Unit) (next : Routine α) : Routine α
  /-- Runs a round again and again, as long as it answers true. -/
  | iterate {α : Type} (round : Routine Bool) (next : Except Fault Unit → Routine α) : Routine α

namespace Routine

def bind {α β : Type} (r : Routine α) (f : α → Routine β) : Routine β :=
  match r with
  | .done a => f a
  | .fail fault => .fail fault
  | .perform request next => .perform request fun reply => (next reply).bind f
  | .define name body next => .define name body (next.bind f)
  | .iterate round next => .iterate round fun reply => (next reply).bind f

/-- Runs a routine and answers its result or its failure. -/
def attempt {α : Type} : Routine α → Routine (Except Fault α)
  | .done a => .done (.ok a)
  | .fail fault => .done (.error fault)
  | .perform request next => .perform request fun reply => (next reply).attempt
  | .define name body next => .define name body next.attempt
  | .iterate round next => .iterate round fun reply => (next reply).attempt

instance : Monad Routine where
  pure := .done
  bind := .bind

def ofExcept {α : Type} : Except Fault α → Routine α
  | .ok a => .done a
  | .error fault => .fail fault

/-- Makes one request and fails if it fails. -/
def ask (request : Request) : Routine request.Reply := .perform request ofExcept

def view : Routine View := ask .view

def push (value : Value) : Routine Unit := ask (.push value)

def pop : Routine Value := ask .pop

def valueAt (index : Float) : Routine Value := ask (.valueAt index)

def storeAt (index : Float) (value : Value) : Routine Unit := ask (.storeAt index value)

def clear : Routine Unit := ask .clear

def emit (text : String) : Routine Unit := ask (.emit text)

def trace (message : String) : Routine Unit := ask (.trace message)

def assignOperator (symbol name : String) : Routine Unit := ask (.assignOperator symbol name)

def parse (source : String) : Routine Reading := ask (.parse source)

def evaluate (tokens : List Value) : Routine Unit := ask (.evaluate tokens)

def invoke (value : Value) : Routine Unit := ask (.invoke value)

/-- Fails with a cause of the language. -/
def failWith {α : Type} (cause : Cause) : Routine α := .fail (.language cause)

/-- Adds or replaces a function. A given operator is assigned first, so with a bad one nothing is
added. -/
def addFunction (symbol? : Option String) (name : String) (body : Routine Unit) :
    Routine Unit := do
  if let some symbol := symbol? then
    assignOperator symbol name
  .define name body (.done ())

/-- Reads a source text and evaluates its tokens. -/
def run (source : String) : Routine Unit := do
  let reading ← parse source
  evaluate reading.tokens

def depth : Routine Nat := return (← view).stack.length

def takeNumber : Routine Float := do
  match ← pop with
  | .number x => return x
  | v => failWith (.mismatch "number" v)

def takeText : Routine String := do
  match ← pop with
  | .string s => return s
  | v => failWith (.mismatch "string" v)

def takeBlock : Routine (List Value) := do
  match ← pop with
  | .block body => return body
  | v => failWith (.mismatch "macro" v)

/-- Pops a value for its truth. -/
def takeTruth : Routine Bool := do
  let v ← pop
  match v.truth? with
  | some b => return b
  | none => failWith (.notBoolean v)

def loop (round : Routine Bool) : Routine Unit := .iterate round ofExcept

end Routine

end Cairn
