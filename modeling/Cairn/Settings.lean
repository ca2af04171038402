import Cairn.Display
import Cairn.Json.Problem
import Cairn.World

set_option autoImplicit false

/-!
Settings: a JSON file, given or found in the working directory, with the environment laid over
it. A file is taken whole or not at all; members it does not know are left out.
-/

namespace Cairn

structure Settings where
  output? : Option Mode := none
  trace? : Option Bool := none
  plugins? : Option (List String) := none
  prompt? : Option String := none
  deriving DecidableEq

inductive SettingsError where
  | unreadable (error : FileError)
  | notJson (path detail : String)
  | notObject (path : String)
  /-- A member of the wrong type, and what it has to be. -/
  | badMember (name path expected : String)
  | badVariable (value : String)
  deriving DecidableEq

def SettingsError.message : SettingsError → String
  | .unreadable e => e.message
  | .notJson path detail => "Invalid JSON in config file " ++ path ++ ": " ++ detail
  | .notObject path => "Invalid config in " ++ path ++ ": must be an object"
  | .badMember name path expected =>
    "Invalid \"" ++ name ++ "\" in " ++ path ++ ": must be " ++ expected
  | .badVariable value =>
    "Invalid CAIRN_OUTPUT \"" ++ value ++ "\": expected one of " ++ Mode.names

namespace Settings

def mode? : Json → Option Mode
  | .string name => Mode.ofName? name
  | _ => none

def boolean? : Json → Option Bool
  | .boolean b => some b
  | _ => none

def text? : Json → Option String
  | .string s => some s
  | _ => none

def texts? : Json → Option (List String)
  | .array items => items.mapM text?
  | _ => none

/-- A member that may be left out but not be of the wrong type. -/
def member? {α : Type} (path : String) (j : Json) (name expected : String)
    (convert : Json → Option α) : Except SettingsError (Option α) :=
  match j.get? name with
  | none => .ok none
  | some value =>
    match convert value with
    | some a => .ok (some a)
    | none => .error (.badMember name path expected)

/-- The settings of a document read from `path`. -/
def ofJson (path : String) (j : Json) : Except SettingsError Settings :=
  match j with
  | .object _ => do
    let output? ← member? path j "output" ("one of " ++ Mode.names) mode?
    let trace? ← member? path j "trace" "a boolean" boolean?
    let plugins? ← member? path j "plugins" "an array of strings" texts?
    let prompt? ← member? path j "prompt" "a string" text?
    return { output?, trace?, plugins?, prompt? }
  | _ => .error (.notObject path)

def ofText (path text : String) : Except SettingsError Settings :=
  match Json.parse text with
  | .ok j => ofJson path j
  | .error e => .error (.notJson path (e.message text))

/-- The settings as a document, with those members that are set. -/
def toJson (s : Settings) : Json :=
  let output := s.output?.map fun mode => ("output", Json.string mode.name)
  let trace := s.trace?.map fun b => ("trace", Json.boolean b)
  let plugins := s.plugins?.map fun names => ("plugins", Json.array (names.map .string))
  let prompt := s.prompt?.map fun text => ("prompt", Json.string text)
  .object ([output, trace, plugins, prompt].filterMap id)

def fileNames : List String := ["cairn.config.json", ".cairnrc.json"]

def readFile (files : FileTree) (path : Path) : Except SettingsError Settings :=
  match files.read path with
  | .ok text => ofText path.toString text
  | .error e => .error (.unreadable e)

/-- The settings and the directory that plugins are looked up from: the file's if it was given,
otherwise the working directory. Without a file nothing is set. -/
def load (w : World) (given? : Option String) : Except SettingsError (Settings × Path) :=
  match given?.filter (· ≠ "") with
  | some given => do
    let path := w.directory.resolve given
    return (← readFile w.files path, path.parent)
  | none =>
    match (fileNames.map w.directory.resolve).find? w.files.contains with
    | some path => do
      return (← readFile w.files path, w.directory)
    | none => return ({}, w.directory)

/-- Settings with the environment laid over them. -/
def overlay (env : Environment) (s : Settings) : Except SettingsError Settings := do
  let output? ← match env.output?.filter (· ≠ "") with
    | none => pure s.output?
    | some value =>
      match Mode.ofName? value with
      | some mode => pure (some mode)
      | none => throw (.badVariable value)
  return { s with output?, trace? := if env.trace? = some "1" then some true else s.trace? }

end Settings

end Cairn
