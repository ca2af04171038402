import Cairn.Json.Problem
import Cairn.Plugin.Package
import Cairn.World

set_option autoImplicit false

/-!
Modules: the file that a path to load stands for, and what that file exports. A path names a file
outright or without its extension, or a directory that is loaded through its main file. The package
descriptions met on the way have to be good ones.
-/

namespace Cairn

inductive ModuleError where
  | missing (path : String)
  /-- The main file that a directory asks for does not exist. -/
  | noMain (path : String)
  | badPackage (path : String)
  | notJson (path reason : String)
  /-- A file of the kind that holds machine code, without any. -/
  | notLibrary (path reason : String)
  | failed (fault : Fault)

/-- The text of what went wrong, or the failure that asking for it ends in. -/
def ModuleError.text : ModuleError → Except Fault String
  | .missing path => .ok ("Cannot find module '" ++ path ++ "'")
  | .noMain path => .ok ("Cannot find module '" ++ path
      ++ "'. Please verify that the package.json has a valid \"main\" entry")
  | .badPackage path => .ok ("Invalid package config " ++ path ++ ".")
  | .notJson path reason => .ok (path ++ ": " ++ reason)
  | .notLibrary path reason => .ok (path ++ ": " ++ reason)
  | .failed fault => fault.text

namespace Module

/-- The extensions that a path to load may leave out, in the order they are tried. -/
def extensions : List String := [".js", ".json", ".node"]

/-- The file named by a path without its extension. -/
def extended? (files : FileTree) (path : Path) : Option Path :=
  (extensions.map path.withExtension).find? files.hasFile

/-- The file named by a path, with or without its extension. -/
def file? (files : FileTree) (path : Path) : Option Path :=
  if files.hasFile path then some path else extended? files path

/-- The index of a directory. -/
def index? (files : FileTree) (directory : Path) : Option Path :=
  extended? files (directory.resolve "index")

/-- The package description in a directory, if there is any. -/
def package (files : FileTree) (directory : Path) : Except ModuleError (Option Package) :=
  let path := directory.resolve "package.json"
  match files.read path with
  | .error _ => .ok none
  | .ok text =>
    match Package.parse? text with
    | some p => .ok (some p)
    | none => .error (.badPackage path.toString)

/-- The main file a directory asks for. -/
def main? (files : FileTree) (directory : Path) : Except ModuleError (Option Path) := do
  match (← package files directory).bind (·.main?) with
  | some name => return if name = "" then none else some (directory.resolve name)
  | none => return none

/-- The file that stands for a path. The main file of a directory may itself be a directory with
an index, and a directory whose main file is missing falls back on its own index. -/
def locate (files : FileTree) (path : Path) : Except ModuleError Path :=
  match file? files path with
  | some file => .ok file
  | none => do
    match ← main? files path with
    | none =>
      match index? files path with
      | some file => .ok file
      | none => .error (.missing path.toString)
    | some main =>
      match file? files main <|> index? files main <|> index? files path with
      | some file => .ok file
      | none => .error (.noMain main.toString)

/-- The directories whose package a file may belong to, from the inside out. The root has none,
and packages do not reach out of a directory of installed ones. -/
def scopes (file : Path) : List Path :=
  let depth := file.steps.length
  let above := (List.range depth).map fun n =>
    { file with steps := file.steps.take (depth - 1 - n) }
  (above.filter (· ≠ .root)).takeWhile (·.name? ≠ some "node_modules")

/-- What is wrong with the package of a file: directories are asked up to the first good
description, and of the bad ones before it the outermost counts. -/
def scopeError? (files : FileTree) : List Path → Option ModuleError
  | [] => none
  | directory :: rest =>
    match package files directory with
    | .ok (some _) => none
    | .ok none => scopeError? files rest
    | .error e => (scopeError? files rest).or (some e)

/-- Whether a path is a name with the given extension behind it. -/
def hasExtension (path : Path) (extension : String) : Bool :=
  match path.name? with
  | some name => name ≠ extension && extension.toList.isSuffixOf name.toList
  | none => false

/-- The bytes in the header of a file with machine code. -/
def headerSize : Nat := 64

/-- What the text of a file exports. A JSON file exports its document, a text is no machine code,
and any other exports nothing. -/
def exportOfText (path : Path) (content : String) : Except ModuleError Export :=
  if hasExtension path ".json" then
    let text := Package.withoutMark content
    match Json.parse text with
    | .ok j => .ok (.ofJson j)
    | .error e => .error (.notJson path.toString (e.message text))
  else if hasExtension path ".node" then
    .error (.notLibrary path.toString
      (if content.utf8ByteSize < headerSize then "file too short" else "invalid ELF header"))
  else .ok (.record [])

/-- What the file at a path exports. -/
def exportOf (files : FileTree) (path : Path) : Except ModuleError Export :=
  match files.find path with
  | .ok (.module (.ok x)) => .ok x
  | .ok (.module (.error fault)) => .error (.failed fault)
  | .ok (.text content) => exportOfText path content
  | .ok .closedFile =>
    if hasExtension path ".node" then
      .error (.notLibrary path.toString "cannot open shared object file: Permission denied")
    else .error (.failed (.file (.denied path.toString)))
  | .ok .directory | .ok .closedDirectory | .error _ => .error (.missing path.toString)

/-- Whether a file is loaded under the rules of the package it belongs to. -/
def isScoped (file : Path) : Bool :=
  match file.name? with
  | some name => ".js".toList.isSuffixOf name.toList
  | none => false

/-- The file to load for a path, if its package is a good one. -/
def approve (files : FileTree) (path : Path) : Except ModuleError Path := do
  let file ← locate files path
  match if isScoped file then scopeError? files (scopes file) else none with
  | some e => .error e
  | none => .ok file

/-- What loading a path gives. -/
def load (files : FileTree) (path : Path) : Except ModuleError Export :=
  match approve files path with
  | .ok file => exportOf files file
  | .error e => .error e

end Module

end Cairn
