import Cairn.Display
import Cairn.Machine.Evaluation

set_option autoImplicit false

/-!
The interactive prompt: one line is read, evaluated and answered by the lines that report a
failure and show the stack. Input that is not a terminal arrives as a whole and is cut into lines.
-/

namespace Cairn.Prompt

def defaultPrompt : String := "cairn> "

/-- Evaluates a line and answers what to print. After a text that cannot be read nothing ran and
there is no stack to show; after any other failure the stack is the one rolled back. -/
def answer (line : String) (mode : Mode) (width : Nat) : Routine (List String) := do
  match ← (Routine.run line).attempt with
  | .ok _ => return (← Routine.view).format mode width
  | .error (.reading cause offset) => return (Fault.reading cause offset).report
  | .error fault =>
    return (← Routine.ofExcept fault.told) ++ (← Routine.view).format mode width

/-- The text after the last opening bracket of a line, if no bracket closes it. -/
def openReference? (line : List Char) : Option (List Char) :=
  let tail := (line.reverse.takeWhile (· ≠ '[')).reverse
  if line.contains '[' ∧ ¬ tail.contains ']' then some tail else none

/-- Completes a function reference: the registered names that start with what follows the last
open bracket, in order, and the text they complete. -/
def complete (functions : List String) (line : String) : List String × String :=
  match openReference? line.toList with
  | some start =>
    (Text.sort (functions.filter fun name => start.isPrefixOf name.toList), String.ofList start)
  | none => ([], line)

/-- Cuts input at line feeds, carriage returns or both together. A rest without a line end is a
line too unless it is empty. -/
def lines (input : List Char) : List String :=
  go [] input
where
  /-- Collects the characters of a line in reverse. -/
  go (line : List Char) : List Char → List String
    | [] => if line.isEmpty then [] else [String.ofList line.reverse]
    | '\r' :: '\n' :: rest => String.ofList line.reverse :: go [] rest
    | c :: rest =>
      if c = '\n' ∨ c = '\r' then String.ofList line.reverse :: go [] rest
      else go (c :: line) rest

/-- What a prompt shows and where. With `echoes`, printed values appear on the same screen. -/
structure Console where
  mode : Mode
  prompt : String := defaultPrompt
  width : Nat := 80
  echoes : Bool := false

inductive Event where
  | line (text : String)
  | interrupt

/-- Texts as lines of a screen. -/
def screenLines (texts : List String) : String := String.join (texts.map (· ++ "\n"))

/-- What an event writes to the screen in front of the next prompt. -/
def react (fuel : Nat) (console : Console) : Event → Action String
  | .interrupt => return "\nUse Ctrl-D to quit.\n"
  | .line text => do
    let before ← Action.inspect (·.output.size)
    let shown ← Machine.perform fuel (answer text console.mode console.width)
    let printed ← Action.inspect fun m => (m.output.extract before m.output.size).toList
    return screenLines (if console.echoes then printed else []) ++ screenLines shown

/-- What an event writes to the screen, up to and with the next prompt. -/
def respond (fuel : Nat) (console : Console) (event : Event) : Action String :=
  return (← react fuel console event) ++ console.prompt

def respondAll (fuel : Nat) (console : Console) : List Event → Action String
  | [] => return ""
  | event :: rest => do
    let first ← respond fuel console event
    return first ++ (← respondAll fuel console rest)

/-- A whole session: all that the screen shows, starting with the prompt. -/
def session (fuel : Nat) (console : Console) (events : List Event) : Action String :=
  return console.prompt ++ (← respondAll fuel console events)

end Cairn.Prompt
