import Cairn.Core.Library
import Cairn.Plugin.Loading
import Cairn.Prompt.Editor
import Cairn.Settings

set_option autoImplicit false

/-!
The command line: its arguments, and the run they ask for as a function of the surroundings.
-/

namespace Cairn.CommandLine

def usage : String := "
cairn - a small stack-based scripting language

Usage:
  cairn                        Start the interactive prompt
  cairn <code>                 Run <code> and print the stack
  cairn --file <file.cairn>    Run a script file and print the stack
  cairn --parse <code>         Print the token stream as JSON instead of running
  cairn --list                 List registered functions and their operators
  cairn --help                 Show this help message

Options:
  -f, --file <path>            Script to run
  --output <mode>              Stack display: " ++ Mode.names ++
    " (default: human on a terminal, simple otherwise)
  --plugin <name>              Load plugins/<name>.js or plugins/<name>.cairn (repeatable)
  --config <path>              Path to cairn.config.json (auto-detected by default)
  --trace                      Log every function call and rollback

Examples:
  cairn '1 2+'
  cairn '\x7bd*\x7d \"sq\" #  7[sq]x'
  cairn --output machine --file script.cairn

Environment Variables:
  CAIRN_OUTPUT        Default output mode (overridden by --output)
  CAIRN_TRACE         Set to \"1\" to enable tracing
  CAIRN_PLUGIN_PATH   Extra plugin directories, separated like PATH
"

/-! Arguments. -/

/-- Flags that take the argument after them as their value. -/
def valueFlags : List String := ["--file", "-f", "--output", "--config", "--plugin"]

def switches : List String := ["--parse", "--list", "--trace", "--help", "-h"]

/-- What an argument is in a scan from the left. -/
inductive Role where
  | flag
  | value (flag : String)
  | code
  | unknown
  deriving DecidableEq

/-- The role of every argument. -/
def roles : List String → List Role
  | [] => []
  | arg :: rest =>
    if valueFlags.contains arg then
      match rest with
      | [] => [.flag]
      | _ :: rest' => .flag :: .value arg :: roles rest'
    else if switches.contains arg then .flag :: roles rest
    else if arg.startsWith "--" then .unknown :: roles rest
    else .code :: roles rest

def argumentsOf (role : Role) (args : List String) : List String :=
  ((args.zip (roles args)).filter (·.2 = role)).map (·.1)

/-- The argument after the first occurrence of a flag. -/
def valueAfter? (flag : String) : List String → Option String
  | [] => none
  | arg :: rest => if arg = flag then rest.head? else valueAfter? flag rest

/-- The arguments after every occurrence of a flag. -/
def valuesAfter (flag : String) : List String → List String
  | arg :: next :: rest =>
    let more := valuesAfter flag (next :: rest)
    if arg = flag then next :: more else more
  | _ => []

/-! Runs. -/

/-- The standard output: whether it is a terminal, and how wide it says it is. -/
structure Terminal where
  isTerminal : Bool := false
  columns? : Option Int := none

def Terminal.width (t : Terminal) : Int := t.columns?.getD 80

/-- How a run ended: its exit code, or the failure that cut it off, the texts written to standard
output and to standard error, and the screen of its prompt. -/
structure Exit where
  status : Except Fault Nat
  output : List String := []
  errors : List String := []
  screen : String := ""

/-- Exit with code zero after writing some lines. -/
def Exit.success (output : List String) : Exit := { status := .ok 0, output }

/-- Exit with code one after reporting why. -/
def Exit.failure (errors : List String) : Exit := { status := .ok 1, errors }

/-- What the arguments and the settings ask for. -/
structure Job where
  world : World
  terminal : Terminal
  input : String
  args : List String
  settings : Settings
  base : Path
  mode : Mode

namespace Job

/-- The plugins to load with the directories they are looked up from: those of the settings, then
those of the arguments. -/
def plugins (job : Job) : List (String × Path) :=
  (job.settings.plugins?.getD []).map (·, job.base)
    ++ (valuesAfter "--plugin" job.args).map (·, job.world.directory)

/-- Loads plugins in turn and collects the descriptions of their functions. -/
def loadPlugins (fuel : Nat) (w : World) :
    List (String × Path) → Table String → Action (Table String)
  | [], descriptions => return descriptions
  | (name, base) :: rest, descriptions =>
    match Plugin.fetch w name base with
    | .error fault => .fail fault
    | .ok source => do
      Machine.perform fuel (source.install name)
      loadPlugins fuel w rest (source.describe descriptions)

/-- The source to run: that of a file, or the code among the arguments. -/
inductive Program where
  | text (source : String)
  | noFile (path : Path)
  | unreadable (error : FileError)
  | prompt

def program (job : Job) : Program :=
  match valueAfter? "--file" job.args <|> valueAfter? "-f" job.args with
  | some file =>
    let path := job.world.directory.resolve file
    if job.world.files.contains path then
      match job.world.files.read path with
      | .ok source => .text source
      | .error e => .unreadable e
    else .noFile path
  | none =>
    match argumentsOf .code job.args with
    | [] => .prompt
    | code => .text (" ".intercalate code)

/-- Ends a run that failed with the report on it. -/
def report (fault : Fault) : Action Exit :=
  match fault.told with
  | .ok lines => return .failure lines
  | .error complaint => .fail complaint

def runText (fuel : Nat) (job : Job) (source : String) : Action Exit := do
  if job.args.contains "--parse" then
    match ← (Machine.perform fuel (Routine.parse source)).attempt with
    | .ok reading => return .success [Value.machineText reading.tokens]
    | .error fault => report fault
  else
    match ← (Machine.run fuel source).attempt with
    | .ok _ => return .success (← Action.inspect (·.view.format job.mode job.terminal.width.toNat))
    | .error fault => report fault

def console (job : Job) (echoes : Bool) : Prompt.Console where
  mode := job.mode
  prompt := job.settings.prompt?.getD Prompt.defaultPrompt
  width := job.terminal.width.toNat
  echoes

/-- Runs the prompt: on a terminal its line editor takes the input key by key. -/
def runPrompt (fuel : Nat) (job : Job) : Action Exit := do
  let console := job.console false
  let screen ←
    if job.terminal.isTerminal then
      Prompt.Editor.session fuel console job.terminal.columns? job.input
    else
      Prompt.session fuel console ((Prompt.lines job.input.toList).map .line)
  return { status := .ok 0, screen }

/-- Installs the core library and the plugins on a new machine. It answers the descriptions of their
functions, or the exit that a plugin which does not load ends in. -/
def setUp (fuel : Nat) (job : Job) : Action (Except Exit (Table String)) := do
  Machine.installCore fuel
  let known := Core.plugin.describe .empty
  match ← (loadPlugins fuel job.world job.plugins known).attempt with
  | .ok descriptions => return .ok descriptions
  | .error fault =>
    match fault.text with
    | .ok text => return .error (.failure ["Error: " ++ text])
    | .error complaint => .fail complaint

/-- Does the job on a new machine. -/
def run (fuel : Nat) (job : Job) : Action Exit := do
  match ← job.setUp fuel with
  | .error exit => return exit
  | .ok descriptions =>
    if job.args.contains "--list" then
      return .success (← Action.inspect (Display.functionList ·.view descriptions))
    else
      match job.program with
      | .text source => job.runText fuel source
      | .noFile path => return .failure ["Error: File not found: " ++ path.toString]
      | .unreadable e => Action.fail (.file e)
      | .prompt => job.runPrompt fuel

def tracing (job : Job) : Bool := job.args.contains "--trace" || job.settings.trace?.getD false

end Job

/-- An exit with what the machine printed and traced on the way in front. -/
def Exit.after (m : Machine) (exit : Exit) : Exit :=
  { exit with
    output := m.output.toList ++ exit.output
    errors := m.log.toList.map Machine.traceLine ++ exit.errors }

/-- The job that arguments ask for, or the exit they end in without one. -/
def plan (w : World) (terminal : Terminal) (input : String) (args : List String) :
    Except Exit Job :=
  if args.contains "--help" ∨ args.contains "-h" then .error (.success [usage])
  else
    match argumentsOf .unknown args with
    | arg :: _ =>
      .error (.failure
        ["Error: Unknown option \"" ++ arg ++ "\". Run \"cairn --help\" for usage."])
    | [] =>
      let found := do
        let (settings, base) ← Settings.load w (valueAfter? "--config" args)
        return (← settings.overlay w.environment, base)
      match found with
      | .error e => .error (.failure ["Error: " ++ e.message])
      | .ok (settings, base) =>
        let job (mode : Mode) : Job := { world := w, terminal, input, args, settings, base, mode }
        match valueAfter? "--output" args with
        | none => .ok (job (settings.output?.getD (Mode.auto terminal.isTerminal)))
        | some name =>
          match Mode.ofName? name with
          | some mode => .ok (job mode)
          | none =>
            .error (.failure ["Error: Unknown output mode \"" ++ name ++ "\". Use one of "
              ++ Mode.names ++ "."])

/-- Runs the command line; nothing when the fuel runs out. -/
def run (fuel : Nat) (w : World) (terminal : Terminal) (input : String) (args : List String) :
    Option Exit :=
  match plan w terminal input args with
  | .error exit => some exit
  | .ok job =>
    match job.run fuel { tracing := job.tracing } with
    | .done exit m => some (exit.after m)
    | .failed fault m => some (Exit.after m { status := .error fault })
    | .exhausted => none

end Cairn.CommandLine
