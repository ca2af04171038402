import Cairn.CommandLine
import Cairn.Proofs.LanguageErrors

set_option autoImplicit false

/-!
# Runs of the command line

What a job of the command line can end in. Its exit is that of one of its stages: the plugins, the
list of functions, the file, the prompt, or the source text, which is parsed or run.
-/

namespace Cairn

namespace Action

variable {α β : Type} {action : Action α} {m m' : Machine}

theorem bind_eq_done {later : α → Action β} {b : β} :
    (action >>= later) m = .done b m' ↔
      ∃ a middle, action m = .done a middle ∧ later a middle = .done b m' := by
  change (action m).bind later = _ ↔ _
  cases action m <;> simp [Outcome.bind]

theorem attempt_eq_done {result : Except Fault α} :
    action.attempt m = .done result m' ↔ action m = .settled result m' := by
  unfold attempt
  cases action m <;> cases result <;> simp [Outcome.settled]

end Action

namespace CommandLine

open Machine

variable {w : World} {terminal : Terminal} {input source : String} {args : List String} {job : Job}
  {fuel : Nat} {m m' : Machine} {exit : Exit}

/-- Surroundings without files. -/
def bare : World := ⟨⟨[]⟩, .root, {}⟩

/-- What arguments lead to: a job with them, the usage, or a refusal in one line. -/
inductive Planned (w : World) (args : List String) : Except Exit Job → Prop
  | job {job : Job} (world : job.world = w) (same : job.args = args) : Planned w args (.ok job)
  | usage : Planned w args (.error (.success [usage]))
  | refusal {line : String} (starts : line.toList.head? = some 'E') :
      Planned w args (.error (.failure [line]))

theorem planned (w : World) (terminal : Terminal) (input : String) (args : List String) :
    Planned w args (plan w terminal input args) := by
  unfold plan
  split
  next => exact .usage
  next =>
    split
    next => exact .refusal (by simp)
    next =>
      dsimp only
      split
      next => exact .refusal (by simp)
      next =>
        split
        next => exact .job rfl rfl
        next =>
          split
          next => exact .job rfl rfl
          next => exact .refusal (by simp)

theorem of_plan (plan_eq : plan w terminal input args = .ok job) :
    job.world = w ∧ job.args = args := by
  have planned := planned w terminal input args
  rw [plan_eq] at planned
  cases planned with
  | job world same => exact ⟨world, same⟩

namespace Job

/-- How a job can end, with the machine it leaves. -/
inductive Ends (job : Job) (m : Machine) : Exit → Prop
  | badPlugin (fault : Fault) : Ends job m (.failure ["Error: " ++ fault.message])
  | listed (asked : "--list" ∈ job.args) (descriptions : Table String) :
      Ends job m (.success (Display.functionList m.view descriptions))
  | noFile {path : Path} (program : job.program = .noFile path) :
      Ends job m (.failure ["Error: File not found: " ++ path.toString])
  | prompt (program : job.program = .prompt) (screen : String) :
      Ends job m { status := .ok 0, screen }
  | reported {source : String} (program : job.program = .text source) (fault : Fault) :
      Ends job m (.failure fault.report)
  | parsed {source : String} {reading : Reading} (program : job.program = .text source)
      (asked : "--parse" ∈ job.args) (read : m.parse source = .ok reading) :
      Ends job m (.success [Value.machineText reading.tokens])
  | ran {source : String} (program : job.program = .text source) (asked : "--parse" ∉ job.args) :
      Ends job m (.success (m.view.format job.mode job.terminal.width.toNat))

theorem report_eq_done {fault : Fault} (reported : report fault m = .done exit m') :
    exit = .failure fault.report ∧ m' = m := by
  cases fault
  case mute => cases reported
  all_goals
    cases reported
    exact ⟨rfl, rfl⟩

theorem ends_of_runText (program : job.program = .text source)
    (ran : job.runText fuel source m = .done exit m') : job.Ends m' exit := by
  unfold runText at ran
  split at ran
  next asked =>
    obtain ⟨result, middle, attempted, ended⟩ := Action.bind_eq_done.mp ran
    have answered := Action.attempt_eq_done.mp attempted
    rw [Routine.parse, perform_ask, respond] at answered
    cases result with
    | error fault =>
      obtain ⟨rfl, rfl⟩ := report_eq_done ended
      exact .reported program fault
    | ok reading =>
      cases ended
      cases read : m.parse source with
      | error fault =>
        rw [read] at answered
        cases answered
      | ok reading =>
        rw [read] at answered
        cases answered
        exact .parsed program (by simpa using asked) read
  next asked =>
    obtain ⟨result, middle, _, ended⟩ := Action.bind_eq_done.mp ran
    cases result with
    | error fault =>
      obtain ⟨rfl, rfl⟩ := report_eq_done ended
      exact .reported program fault
    | ok _ =>
      cases ended
      exact .ran program (by simpa using asked)

theorem exit_of_setUp (ended : job.setUp fuel m = .done (.error exit) m') :
    ∃ fault : Fault, exit = .failure ["Error: " ++ fault.message] := by
  obtain ⟨_, installed, _, loaded⟩ := Action.bind_eq_done.mp ended
  obtain ⟨result, middle, _, ended⟩ := Action.bind_eq_done.mp loaded
  cases result with
  | error fault =>
    cases fault
    case mute => cases ended
    all_goals
      cases ended
      exact ⟨_, rfl⟩
  | ok descriptions => cases ended

theorem ends_of_runPrompt (program : job.program = .prompt)
    (ran : job.runPrompt fuel m = .done exit m') : job.Ends m' exit := by
  unfold runPrompt at ran
  split at ran
  all_goals
    obtain ⟨screen, middle, _, ended⟩ := Action.bind_eq_done.mp ran
    cases ended
    exact .prompt program screen

theorem ends_of_run (ran : job.run fuel m = .done exit m') : job.Ends m' exit := by
  obtain ⟨result, middle, setUp, ended⟩ := Action.bind_eq_done.mp ran
  cases result with
  | error early =>
    obtain ⟨fault, rfl⟩ := exit_of_setUp setUp
    cases ended
    exact .badPlugin fault
  | ok descriptions =>
    dsimp only at ended
    split at ended
    next asked =>
      cases ended
      exact .listed (by simpa using asked) descriptions
    next =>
      cases program : job.program <;> simp only [program] at ended
      case text source => exact ends_of_runText program ended
      case noFile path =>
        cases ended
        exact .noFile program
      case unreadable => cases ended
      case prompt => exact ends_of_runPrompt program ended

end Job

end CommandLine

end Cairn
