import Cairn.Routine
import Cairn.Text.Blank
import Cairn.Text.Units
import Cairn.Value.Json

set_option autoImplicit false

/-!
What is shown of a machine: its stack in one of four modes and the list of its functions.
-/

namespace Cairn

/-- How a stack is shown: as coloured cells cut to the width of the terminal with their depths
underneath, as plain renderings on one line, as one line of JSON, or not at all. -/
inductive Mode where
  | human
  | simple
  | machine
  | quiet
  deriving DecidableEq

namespace Mode

def all : List Mode := [.human, .simple, .machine, .quiet]

def name : Mode → String
  | .human => "human"
  | .simple => "simple"
  | .machine => "machine"
  | .quiet => "quiet"

def ofName? (name : String) : Option Mode := all.find? (·.name = name)

/-- The names of the modes as messages list them. -/
def names : String := ", ".intercalate (all.map name)

/-- Cells on a terminal, plain values when the output goes elsewhere. -/
def auto (isTerminal : Bool) : Mode := if isTerminal then .human else .simple

end Mode

namespace Display

/-- Terminal colours. -/
inductive Colour where
  | grey
  | red
  | yellow
  | cyan
  | white
  | brightWhite

def Colour.code : Colour → String
  | .grey => "\x1b[90m"
  | .red => "\x1b[31m"
  | .yellow => "\x1b[33m"
  | .cyan => "\x1b[36m"
  | .white => "\x1b[37m"
  | .brightWhite => "\x1b[97m"

def reset : String := "\x1b[0m"

def paint (colour : Colour) (text : String) : String := colour.code ++ text ++ reset

/-- The colour of a value; a reference to no function is red. -/
def colourOf (isFunction : String → Bool) : Value → Colour
  | .string _ => .cyan
  | .number _ => .brightWhite
  | .function name => if isFunction name then .white else .red
  | .boolean _ => .yellow
  | .block _ | .operator _ => .white

/-- The least width of a value in a cell. -/
def cellWidth : Nat := 11

def cellText (v : Value) : String := Text.padLeft v.render cellWidth

/-- A value between brackets. -/
def cell (isFunction : String → Bool) (v : Value) : String :=
  paint .grey "[" ++ paint (colourOf isFunction v) (cellText v) ++ paint .grey "]"

/-- The columns a cell takes, its brackets included. -/
def columns (v : Value) : Nat := Text.width (cellText v) + 2

/-- The values, from the top, whose cells fit the width with one column to spare, and whether
any is left over; `used` columns are taken already. -/
def fitting (width : Nat) : (used : Nat) → List Value → List Value × Bool
  | _, [] => ([], false)
  | used, v :: rest =>
    if width ≤ used + columns v + 1 then ([], true)
    else
      let (shown, cut) := fitting width (used + columns v) rest
      (v :: shown, cut)

/-- The depths under the cells, each ending below the closing bracket of its cell. -/
def depths : (depth : Nat) → List Value → String
  | _, [] => ""
  | depth, v :: rest => Text.padLeft (toString depth) (columns v) ++ depths (depth + 1) rest

/-- Cells with their depths underneath, the top of the stack first. -/
def human (isFunction : String → Bool) (stack : List Value) (width : Nat) : List String :=
  if stack.isEmpty then ["(empty stack)"]
  else
    let (shown, cut) := fitting width 0 stack
    let cells := String.join (shown.map (cell isFunction))
    [cells ++ (if cut then " »" else ""), paint .grey (depths 0 shown)]

/-- The lines that show a stack, given top first. -/
def stack (isFunction : String → Bool) (mode : Mode) (width : Nat) (stack : List Value) :
    List String :=
  match mode with
  | .human => human isFunction stack width
  | .simple => [renderAll stack.reverse]
  | .machine => [Value.machineText stack.reverse]
  | .quiet => []

/-- The symbol shown for a function: the last operator that stands for it. -/
def symbolOf? (operators : Table String) (name : String) : Option String :=
  (operators.entries.reverse.find? (·.2 = name)).map (·.1)

/-- A row of the function list: operator, name, description. -/
def row (operators descriptions : Table String) (nameWidth : Nat) (name : String) : String :=
  "  " ++ (symbolOf? operators name).getD " " ++ "  " ++ Text.padRight name nameWidth ++ "  "
    ++ (descriptions.find? name).getD ""

/-- One row per registered function, in the order of the names. -/
def functionList (view : View) (descriptions : Table String) : List String :=
  let names := Text.sort view.functions
  let nameWidth := (names.map Text.width).foldl max 0
  names.map fun name => Text.trimRight (row view.operators descriptions nameWidth name)

end Display

namespace View

/-- The lines that show a machine's stack. -/
def format (v : View) (mode : Mode) (width : Nat) : List String :=
  Display.stack v.knows mode width v.stack

end View

end Cairn
