import Cairn.CommandLine

set_option autoImplicit false

/-!
The program: it looks up the files a run can ask for, hands them to `CommandLine.run` and prints
what comes back. The interactive prompt answers line by line instead.
-/

namespace Cairn.Main

open CommandLine

/-- The nesting and the rounds that a run is given. -/
def fuel : Nat := 1000000000000

/-- What the file system has at a path. -/
inductive Found where
  | directory
  | text (content : String)
  | closedFile

def probe (path : Path) : IO (Option (Path × Found)) := do
  let file := System.mkFilePath [path.toString]
  if ← file.isDir then
    return some (path, .directory)
  else if ← file.pathExists then
    try
      let bytes ← IO.FS.readBinFile file
      return some (path, .text ((String.fromUTF8? bytes).getD ""))
    catch _ => return some (path, .closedFile)
  else
    return none

/-- The part of the file system that the given paths see. -/
def treeOf (found : List (Path × Found)) : FileTree :=
  ⟨found.map fun (path, found) =>
    (path, match found with
      | .directory => .directory
      | .text content => .text content
      | .closedFile => .closedFile)⟩

/-- The directories above a path, from the root down, and the path itself. -/
def wayTo (path : Path) : List Path :=
  (List.range (path.steps.length + 1)).map fun n => { path with steps := path.steps.take n }

/-- The files that can hold settings. -/
def settingsPaths (directory : Path) (args : List String) : List Path :=
  (valueAfter? "--config" args).toList.map directory.resolve
    ++ Settings.fileNames.map directory.resolve

/-- The files that can hold plugins, the descriptions of their packages, and the script. -/
def jobPaths (job : Job) : List Path :=
  let plugins := job.plugins.flatMap fun (name, base) =>
    (Plugin.searchPath job.world base).flatMap (Plugin.candidates name)
  let packages := plugins.flatMap fun path =>
    (path :: Module.scopes path).map (·.resolve "package.json")
  let scripts := (valueAfter? "--file" job.args <|> valueAfter? "-f" job.args).toList
  plugins ++ packages ++ scripts.map job.world.directory.resolve

def printError (lines : List String) : IO Unit := lines.forM fun line => IO.eprintln line

def report (exit : Exit) : IO UInt32 := do
  exit.output.forM fun text => IO.println text
  printError exit.errors
  IO.print exit.screen
  match exit.status with
  | .ok code => return code.toUInt32
  | .error fault =>
    printError ["Error: " ++ fault.message]
    return 1

/-- Answers lines until the input ends. -/
partial def interact (console : Prompt.Console) (input : IO.FS.Stream) (m : Machine) :
    IO UInt32 := do
  let line ← input.getLine
  if line = "" then return 0
  let text := ((Prompt.lines line.toList).head?).getD ""
  match Prompt.respond fuel console (.line text) m with
  | .done screen m' =>
    printError ((m'.log.extract m.log.size m'.log.size).toList.map Machine.traceLine)
    IO.print screen
    (← IO.getStdout).flush
    interact console input m'
  | .failed fault _ => report { status := .error fault }
  | .exhausted => report (.failure ["Error: evaluation does not end"])

/-- The interactive prompt of a job. -/
def prompt (job : Job) : IO UInt32 := do
  match job.setUp fuel { tracing := job.tracing } with
  | .done (.ok _) m =>
    printError (m.log.toList.map Machine.traceLine)
    m.output.forM fun text => IO.println text
    let console := job.console true
    IO.print console.prompt
    (← IO.getStdout).flush
    interact console (← IO.getStdin) m
  | .done (.error exit) m => report (exit.after m)
  | .failed fault m => report (Exit.after m { status := .error fault })
  | .exhausted => report (.failure ["Error: evaluation does not end"])

end Cairn.Main

open Cairn Cairn.CommandLine in
def main (args : List String) : IO UInt32 := do
  let directory := Path.root.resolve (← IO.currentDir).toString
  let environment : Environment := {
    output? := ← IO.getEnv "CAIRN_OUTPUT"
    trace? := ← IO.getEnv "CAIRN_TRACE"
    pluginPath? := ← IO.getEnv "CAIRN_PLUGIN_PATH" }
  let terminal : Terminal := { isTerminal := ← (← IO.getStdout).isTty }
  let settings ← ((Main.settingsPaths directory args).flatMap Main.wayTo).filterMapM Main.probe
  match plan ⟨Main.treeOf settings, directory, environment⟩ terminal "" args with
  | .error exit => Main.report exit
  | .ok job =>
    let files ← ((Main.jobPaths job).flatMap Main.wayTo).filterMapM Main.probe
    let world : World := ⟨Main.treeOf (settings ++ files), directory, environment⟩
    let job := { job with world }
    match job.program, args.contains "--list" with
    | .prompt, false => Main.prompt job
    | _, _ =>
      match CommandLine.run Main.fuel world terminal "" args with
      | some exit => Main.report exit
      | none => Main.report (.failure ["Error: evaluation does not end"])
