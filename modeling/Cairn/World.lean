import Cairn.Plugin.Export
import Cairn.Text.Pieces

set_option autoImplicit false

/-!
The surroundings of a program: a tree of files, a working directory and the environment. Files
do not change while a program runs, so reading one is a function of the tree.
-/

namespace Cairn

/-- An absolute path: steps down from an anchor. The empty anchor is the root of all paths; any
other is the text of a directory somewhere below it that is not taken apart. -/
structure Path where
  anchor : String
  steps : List String
  deriving DecidableEq

namespace Path

def root : Path := ⟨"", []⟩

protected def toString (p : Path) : String :=
  if p.steps.isEmpty then (if p.anchor = "" then "/" else p.anchor)
  else p.anchor ++ String.join (p.steps.map ("/" ++ ·))

/-- The directory a path stands in; above an anchor there is only the root. -/
def parent (p : Path) : Path :=
  if p.steps.isEmpty then root else { p with steps := p.steps.dropLast }

def child (p : Path) (name : String) : Path := { p with steps := p.steps ++ [name] }

/-- One step: nowhere, up or down. -/
def step (p : Path) (name : String) : Path :=
  if name = "" ∨ name = "." then p
  else if name = ".." then p.parent
  else p.child name

/-- The path a text names, seen from `p`. -/
def resolve (p : Path) (text : String) : Path :=
  let start := if text.startsWith "/" then root else p
  (Text.split '/' text).foldl step start

/-- The last step of a path. -/
def name? (p : Path) : Option String := p.steps.getLast?

/-- The path with an extension written behind its last step. -/
def withExtension (p : Path) (extension : String) : Path :=
  match p.name? with
  | some name => p.parent.child (name ++ extension)
  | none => p

/-- Whether `q` is `p` or lies below it. -/
def isAbove (p q : Path) : Bool := p.anchor = q.anchor && p.steps.isPrefixOf q.steps

/-- Whether a null character occurs. -/
def hasNull (p : Path) : Bool := p.toString.toList.any (·.toNat = 0)

end Path

/-- What a tree has at a path. A module file is what loading it gives. What is closed is there, but
the reader may neither read the file nor go through the directory. -/
inductive Entry : Type 1 where
  | directory
  | text (content : String)
  | module (result : Except Fault Export)
  | closedFile
  | closedDirectory

structure FileTree where
  entries : List (Path × Entry)

namespace FileTree

/-- What stands at a path. The directories on the way to an entry are there too, and so is every
root. -/
def entryAt? (t : FileTree) (p : Path) : Option Entry :=
  match t.entries.find? (·.1 = p) with
  | some (_, entry) => some entry
  | none =>
    if p.steps.isEmpty || t.entries.any (p.isAbove ·.1) then some .directory else none

/-- The most bytes in one name of a path. -/
def nameLimit : Nat := 255

/-- The most bytes in a whole path. -/
def pathLimit : Nat := 4095

/-- Goes down from `here` to `goal` by the names in between. Only a directory leads on. -/
def descend (t : FileTree) (goal : Path) : Path → List String → Except FileError Entry
  | here, names =>
    match t.entryAt? here, names with
    | none, _ => .error (.missing goal.toString)
    | some entry, [] => .ok entry
    | some .directory, name :: rest =>
      if name.utf8ByteSize ≤ nameLimit then t.descend goal (here.child name) rest
      else .error (.nameTooLong goal.toString)
    | some .closedDirectory, _ :: _ => .error (.denied goal.toString)
    | some _, _ :: _ => .error (.notDirectory goal.toString)

/-- The entry at a path, looked up from its root. -/
def find (t : FileTree) (p : Path) : Except FileError Entry :=
  if p.hasNull then .error (.nullInPath p.toString)
  else if pathLimit < p.toString.utf8ByteSize then .error (.nameTooLong p.toString)
  else t.descend p ⟨p.anchor, []⟩ p.steps

def contains (t : FileTree) (p : Path) : Bool := (t.find p).isOk

def hasFile (t : FileTree) (p : Path) : Bool :=
  match t.find p with
  | .ok (.text _) | .ok (.module _) | .ok .closedFile => true
  | .ok .directory | .ok .closedDirectory | .error _ => false

/-- The text of a file. A module file is known only by what it exports and has none. -/
def read (t : FileTree) (p : Path) : Except FileError String :=
  match t.find p with
  | .ok (.text content) => .ok content
  | .ok (.module _) => .ok ""
  | .ok .directory => .error .isDirectory
  | .ok .closedFile | .ok .closedDirectory => .error (.denied p.toString)
  | .error e => .error e

end FileTree

/-- The variables a program looks at. -/
structure Environment where
  output? : Option String := none
  trace? : Option String := none
  pluginPath? : Option String := none

structure World where
  files : FileTree
  directory : Path
  environment : Environment

end Cairn
