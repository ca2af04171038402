import Cairn.Prompt
import Cairn.Prompt.Keys
import Cairn.Text.Columns

set_option autoImplicit false

/-!
The prompt on a terminal: an editor for one line. A key changes the line or its cursor and writes
what the screen needs to show it: a character typed at the end is echoed, after any other change
the prompt and the line are written anew. Every function answers the editor after it and the text
that it writes.
-/

namespace Cairn.Prompt

/-- A line under edit: the characters in front of the cursor, nearest first, and those behind. -/
structure Line where
  front : List Char := []
  back : List Char := []
  deriving DecidableEq

namespace Line

def chars (l : Line) : List Char := l.front.reverse ++ l.back

def text (l : Line) : String := String.ofList l.chars

def toStart (l : Line) : Line := ⟨[], l.chars⟩

def toEnd (l : Line) : Line := ⟨l.back.reverse ++ l.front, []⟩

def left (l : Line) : Line :=
  match l.front with
  | [] => l
  | c :: rest => ⟨rest, c :: l.back⟩

def right (l : Line) : Line :=
  match l.back with
  | [] => l
  | c :: rest => ⟨c :: l.front, rest⟩

/-- Characters put in at the cursor, which then stands behind them. -/
def insert (l : Line) (cs : List Char) : Line := { l with front := cs.reverse ++ l.front }

def isWord (c : Char) : Bool := c.isAlphanum || c = '_'

/-- The line without the blanks in front of the cursor and the word, or the signs, before them. -/
def cutWord (l : Line) : Line :=
  let rest := l.front.dropWhile Text.isBlank
  match rest with
  | [] => { l with front := [] }
  | c :: _ =>
    if isWord c then { l with front := rest.dropWhile isWord }
    else { l with front := rest.dropWhile fun d => ¬ isWord d ∧ ¬ Text.isBlank d }

end Line

/-- The editor: what stays the same, the line, the row of the screen on which the cursor was left,
counted from the prompt, and whether a carriage return has just ended a line. -/
structure Editor where
  prompt : String
  columns? : Option Int := none
  line : Line := {}
  row : Int := 0
  returned : Bool := false

namespace Editor

/-- The width at which lines are wrapped: a screen without columns does not wrap. -/
def width? (e : Editor) : Option Int := e.columns?.filter (· ≠ 0)

def cursor (e : Editor) : Text.Place :=
  Text.placeAfter e.width? (e.prompt.toList ++ e.line.front.reverse)

/-- The sequence that moves the cursor: a number and the letter of a direction. -/
def steer (n : Int) (direction : String) : String := "\x1b[" ++ toString n ++ direction

def toColumn (n : Int) : String := steer (n + 1) "G"

def up (n : Int) : String := if 0 < n then steer n "A" else ""

def eraseBelow : String := "\x1b[0J"

/-- Writes the prompt and the line anew over the old ones and puts the cursor in its place. A line
that fills its last row is followed by a blank, which brings the next row about. -/
def refresh (e : Editor) : Editor × String :=
  let shown := e.prompt ++ e.line.text
  let finish := Text.placeAfter e.width? shown.toList
  let text := up e.row ++ toColumn 0 ++ eraseBelow ++ shown
    ++ (if finish.column = 0 then " " else "")
    ++ toColumn e.cursor.column ++ up (finish.row - e.cursor.row)
  ({ e with row := e.cursor.row }, text)

/-- Prompts with the cursor at the start of the line. -/
def start (e : Editor) : Editor × String := { e with line := e.line.toStart }.refresh

def insert (e : Editor) (cs : List Char) : Editor × String :=
  let e' := { e with line := e.line.insert cs }
  if e.line.back.isEmpty ∧ e'.cursor.row ≤ e.cursor.row then (e', String.ofList cs)
  else e'.refresh

/-- Moves the cursor within the line. -/
def moveTo (e : Editor) (line : Line) : Editor × String :=
  let e' := { e with line }
  if e'.cursor.row = e.cursor.row then
    let n := e'.cursor.column - e.cursor.column
    (e', if 0 < n then steer n "C" else if n < 0 then steer (-n) "D" else "")
  else e'.refresh

/-- Changes the line, unless it stays as it is. -/
def edit (e : Editor) (line : Line) : Editor × String :=
  if line = e.line then (e, "") else { e with line }.refresh

/-- Leaves the line: the cursor goes to a new row and the line is empty. -/
def leave (e : Editor) : Editor × String :=
  let (e', moved) := e.moveTo e.line.toEnd
  ({ e' with line := {}, row := 0 }, moved ++ "\r\n")

/-- The beginning that two texts share. -/
def shared : List Char → List Char → List Char
  | c :: s, d :: t => if c = d then c :: shared s t else []
  | _, _ => []

/-- What all completions of the text in front of the cursor have in common beyond it. -/
def completion (functions : List String) (e : Editor) : List Char :=
  let (hits, start) := complete functions (String.ofList e.line.front.reverse)
  match (hits.filter (· ≠ "")).map String.toList with
  | [] => []
  | first :: others => (others.foldl shared first).drop start.length

/-- Keys that only edit; the others are for `press`. -/
def editBy (e : Editor) : Key → Editor × String
  | .char c => e.insert [c]
  | .backspace => e.edit { e.line with front := e.line.front.drop 1 }
  | .delete | .finish => e.edit { e.line with back := e.line.back.drop 1 }
  | .left => e.moveTo e.line.left
  | .right => e.moveTo e.line.right
  | .home => e.moveTo e.line.toStart
  | .tail => e.moveTo e.line.toEnd
  | .cutLeft => { e with line := { e.line with front := [] } }.refresh
  | .cutRight => { e with line := { e.line with back := [] } }.refresh
  | .cutWord => if e.line.front.isEmpty then (e, "") else { e with line := e.line.cutWord }.refresh
  | .clear =>
    let (e', text) := e.refresh
    (e', "\x1b[1;1H" ++ eraseBelow ++ text)
  | .carriageReturn | .lineFeed | .interrupt | .complete => (e, "")

/-- Lets an event happen and prompts again. -/
def answerTo (fuel : Nat) (console : Console) (e : Editor) (event : Event) :
    Action (Editor × String) := do
  let reaction ← react fuel console event
  let (e, text) := e.start
  return (e, reaction ++ text)

/-- Ends the line and has it answered. -/
def enter (fuel : Nat) (console : Console) (e : Editor) : Action (Editor × String) := do
  let text := e.line.text
  let (e, left) := e.leave
  let (e, shown) ← e.answerTo fuel console (.line text)
  return (e, left ++ shown)

/-- The two characters beyond the control ones that separate lines. -/
def isSeparator (c : Char) : Bool := c.toNat = 0x2028 || c.toNat = 0x2029

/-- What a key does. -/
def press (fuel : Nat) (console : Console) (e : Editor) (key : Key) : Action (Editor × String) :=
  let fresh := { e with returned := if key.isControl then e.returned else false }
  match key with
  | .carriageReturn => enter fuel console { e with returned := true }
  | .lineFeed => if e.returned then return (fresh, "") else fresh.enter fuel console
  | .interrupt => e.answerTo fuel console .interrupt
  | .complete => do
    let functions ← Action.inspect (·.functions.keys)
    match completion functions fresh with
    | [] => return (fresh, "")
    | cs => return fresh.insert cs
  | .char c =>
    if isSeparator c then do
      let (e, text) := fresh.insert []
      let (e, more) ← e.enter fuel console
      return (e, text ++ more)
    else return fresh.insert [c]
  | key => return fresh.editBy key

/-- Takes keys until the input is closed or ends. At its end a line that is not empty is answered
too, and stays. -/
def type (fuel : Nat) (console : Console) (e : Editor) : List Key → Action String
  | [] =>
    if e.line.chars.isEmpty then return ""
    else return (← e.answerTo fuel console (.line e.line.text)).2
  | key :: rest =>
    if key = .finish ∧ e.line.chars.isEmpty then return ""
    else do
      let (e, text) ← e.press fuel console key
      return text ++ (← type fuel console e rest)

/-- A whole session on a terminal with the given number of columns: all that the screen shows. -/
def session (fuel : Nat) (console : Console) (columns? : Option Int) (input : String) :
    Action String := do
  let (e, text) := start { prompt := console.prompt, columns? }
  return text ++ (← e.type fuel console (Key.ofText input))

end Editor

end Cairn.Prompt
