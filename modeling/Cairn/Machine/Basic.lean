import Cairn.Number.Arithmetic
import Cairn.Routine

set_option autoImplicit false

/-!
The state of an interpreter: a stack, the functions by name, the operators by symbol, what was
printed and what was traced. Operators stand for names, not functions: the name is looked up on
every use. An operation that fails leaves the state as it is.
-/

namespace Cairn

structure Machine where
  /-- Top first. -/
  stack : List Value := []
  functions : Table (Routine Unit) := .empty
  operators : Table String := .empty
  tracing : Bool := false
  output : Array String := #[]
  log : Array String := #[]

namespace Machine

def view (m : Machine) : View := ⟨m.stack, m.functions.keys, m.operators⟩

def isOperator (m : Machine) (c : Char) : Bool := m.operators.contains (String.singleton c)

def knows (m : Machine) (name : String) : Bool := m.functions.contains name

def push (m : Machine) (value : Value) : Machine := { m with stack := value :: m.stack }

def pop (m : Machine) : Except Fault (Value × Machine) :=
  match m.stack with
  | top :: below => .ok (top, { m with stack := below })
  | [] => .error (.language .tooFewArguments)

/-- The place a number addresses on a stack of the given depth, counted from the top: it must be
a whole number from zero up to below the depth. -/
def place? (index : Float) (depth : Nat) : Option Nat :=
  (Number.toNat? index).filter (· < depth)

def outOfBounds (m : Machine) (index : Float) : Fault :=
  .language (.outOfBounds index m.stack.length)

def valueAt (m : Machine) (index : Float) : Except Fault Value :=
  match (place? index m.stack.length).bind (m.stack[·]?) with
  | some value => .ok value
  | none => .error (m.outOfBounds index)

def storeAt (m : Machine) (index : Float) (value : Value) : Except Fault Machine :=
  match place? index m.stack.length with
  | some i => .ok { m with stack := m.stack.set i value }
  | none => .error (m.outOfBounds index)

def clear (m : Machine) : Machine := { m with stack := [] }

def emit (m : Machine) (text : String) : Machine := { m with output := m.output.push text }

/-- Records a message when tracing is on. -/
def trace (m : Machine) (message : String) : Machine :=
  if m.tracing then { m with log := m.log.push message } else m

/-- Points a single-character alias at a name, registered or not. -/
def assignOperator (m : Machine) (symbol name : String) : Except Fault Machine :=
  if symbol.length = 1 then .ok { m with operators := m.operators.insert symbol name }
  else .error (.badAlias symbol)

def define (m : Machine) (name : String) (body : Routine Unit) : Machine :=
  { m with functions := m.functions.insert name body }

def forgetFunction (m : Machine) (name : String) : Bool × Machine :=
  (m.functions.contains name, { m with functions := m.functions.erase name })

def forgetOperator (m : Machine) (symbol : String) : Bool × Machine :=
  (m.operators.contains symbol, { m with operators := m.operators.erase symbol })

/-- Reads a source text against the operators of the moment. -/
def parse (m : Machine) (source : String) : Except Fault Reading :=
  match Cairn.read m.isOperator source with
  | .ok reading => .ok reading
  | .error error => .error (.reading error.cause (some error.offset))

/-- The line a traced message is echoed as. -/
def traceLine (message : String) : String := "  [trace] " ++ message

end Machine

end Cairn
