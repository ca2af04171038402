import Cairn.Cause
import Cairn.Text.Literal

set_option autoImplicit false

/-!
Failures, by the layer they come from. A failure of the language has a cause; the others come
from the files, the plugins and the native functions around it.
-/

namespace Cairn

/-- Why a file could not be read. -/
inductive FileError where
  | missing (path : String)
  | notDirectory (path : String)
  /-- A name or a path longer than a file system takes. -/
  | nameTooLong (path : String)
  | isDirectory
  /-- A path with a null character names no file at all. -/
  | nullInPath (path : String)
  /-- What is there is closed to the reader, or a directory on the way is. -/
  | denied (path : String)
  deriving DecidableEq

def FileError.message : FileError → String
  | .missing path => "ENOENT: no such file or directory, open '" ++ path ++ "'"
  | .notDirectory path => "ENOTDIR: not a directory, open '" ++ path ++ "'"
  | .nameTooLong path => "ENAMETOOLONG: name too long, open '" ++ path ++ "'"
  | .isDirectory => "EISDIR: illegal operation on a directory, read"
  | .nullInPath path =>
    "The argument 'path' must be a string, Uint8Array, or URL without null bytes. Received "
      ++ Text.literal path
  | .denied path => "EACCES: permission denied, open '" ++ path ++ "'"

/-- Why a plugin could not be loaded. -/
inductive LoadError where
  | notFound (name : String)
  | scriptFailed (name reason : String)
  | notLoadable (name reason : String)
  | invalid (name : String)
  | setupFailed (name reason : String)
  deriving DecidableEq

def LoadError.message : LoadError → String
  | .notFound name =>
    "Plugin \"" ++ name
      ++ "\" not found. Searched in plugins/ directory and CAIRN_PLUGIN_PATH."
  | .scriptFailed name reason => "Plugin \"" ++ name ++ "\" failed: " ++ reason
  | .notLoadable name reason => "Failed to load plugin \"" ++ name ++ "\": " ++ reason
  | .invalid name =>
    "Plugin \"" ++ name ++ "\" does not export a valid CairnPlugin (missing functions)."
  | .setupFailed name reason => "Plugin \"" ++ name ++ "\" setup failed: " ++ reason

inductive Fault where
  /-- A failing native function. -/
  | language (cause : Cause)
  /-- A text that cannot be read, at an offset in characters. -/
  | reading (cause : Cause) (offset : Option Int)
  /-- A failed evaluation: the stack, top first, as the failing call left it, and the token that
  failed once that is known. -/
  | evaluation (cause : Cause) (stack : List Value) (token : Option Value)
  /-- An operator alias that is not a single character. -/
  | badAlias (symbol : String)
  | plugin (error : LoadError)
  | file (error : FileError)
  /-- An error a native function brings from outside the language, labelled with its class. -/
  | foreign (label text : String)
  /-- A bare text raised by a native function. -/
  | raised (text : String)
  /-- A thing raised by a native function that has no text. Asking for one is an error of the given
  class, with a complaint of its own. -/
  | mute (label complaint : String)

namespace Fault

/-- The cause of a failure of the language. -/
def cause? : Fault → Option Cause
  | .language c | .reading c _ | .evaluation c _ _ => some c
  | .badAlias _ | .plugin _ | .file _ | .foreign .. | .raised _ | .mute .. => none

/-- The wording of a failure; one without a text is worded by the complaint about it. -/
def message : Fault → String
  | .language c => c.message
  | .reading c none => c.message
  | .reading c (some offset) =>
    c.message ++ " (at offset " ++ Number.text (Float.ofInt offset) ++ ")"
  | .evaluation c _ none => c.message
  | .evaluation c _ (some token) => c.message ++ " (in " ++ token.render ++ ")"
  | .badAlias symbol =>
    "Operator alias must be a single character, got " ++ Text.quoted symbol
  | .plugin e => e.message
  | .file e => e.message
  | .foreign _ text => text
  | .raised text => text
  | .mute _ complaint => complaint

/-- The text of a failure, or the failure that asking for it ends in. -/
def text : Fault → Except Fault String
  | .mute label complaint => .error (.foreign label complaint)
  | f => .ok f.message

/-- What goes on from a failure whose text was asked for. -/
def voiced : Fault → Fault
  | .mute label complaint => .foreign label complaint
  | f => f

theorem cause?_voiced (f : Fault) : f.voiced.cause? = f.cause? := by
  cases f <;> rfl

theorem voiced_eq_self_iff (f : Fault) : f.voiced = f ↔ f.text.isOk = true := by
  cases f <;> simp [voiced, text, Except.isOk, Except.toBool]

/-- The same failure with its token set, for a failed evaluation. -/
def withToken (token : Option Value) : Fault → Fault
  | .evaluation c stack _ => .evaluation c stack token
  | f => f

/-- The lines that report a failure. A failed evaluation also shows the stack it left. -/
def report : Fault → List String
  | .evaluation c (top :: below) token =>
    ["error: " ++ message (.evaluation c (top :: below) token),
      "stack at failure: " ++ renderAll (top :: below).reverse]
  | f => ["error: " ++ f.message]

/-- The report on a failure, or the failure that making it ends in. -/
def told (f : Fault) : Except Fault (List String) := f.text.map fun _ => f.report

end Fault

end Cairn
