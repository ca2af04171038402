import Cairn.Proofs.CommandRuns
import Cairn.Proofs.Untraced

set_option autoImplicit false

/-!
# Tracing

Tracing changes nothing that a program does. Two machines that differ in whether they trace go
through every session with the same results, failures, stacks, tables and output, and the one that
does not trace has nothing in its log. The command line with one more `--trace` ends with the same
exit code and the same output, and writes the same errors between the lines of the trace.
-/

namespace Cairn

namespace Machine

variable {m : Machine}

/-- An operation on a machine, with the type of what it answers. -/
structure Operation where
  Answer : Type
  routine : Routine Answer

/-- An operation and how it ended. -/
structure Step where
  operation : Operation
  outcome : Outcome operation.Answer

def Step.untraced (step : Step) : Step := { step with outcome := step.outcome.untraced }

/-- The machine that an operation leaves, unless it has no end. -/
def Step.left? (step : Step) : Option Machine :=
  match step.outcome with
  | .done _ m => some m
  | .failed _ m => some m
  | .exhausted => none

/-- A session step by step, up to an operation without an end. -/
def session (fuel : Nat) : List Operation → Machine → List Step
  | [], _ => []
  | operation :: rest, m =>
    let step : Step := ⟨operation, perform fuel operation.routine m⟩
    step :: (step.left?.map (session fuel rest)).getD []

theorem Step.log_of_untraced {step : Step} {left : Machine} (leaves : left ∈ step.untraced.left?) :
    left.log = #[] := by
  obtain ⟨operation, outcome⟩ := step
  cases outcome with
  | done a m =>
    cases leaves
    rfl
  | failed fault m =>
    cases leaves
    rfl
  | exhausted => cases leaves

theorem session_untraced (fuel : Nat) {operations : List Operation}
    (readable : ∀ operation ∈ operations, operation.routine.Blind) (blind : m.Blind) :
    session fuel operations m.untraced = (session fuel operations m).map Step.untraced := by
  induction operations generalizing m with
  | nil => rfl
  | cons operation rest inductionHypothesis =>
    obtain ⟨first, later⟩ := List.forall_mem_cons.mp readable
    obtain ⟨same, kept⟩ := perform_unaware fuel first m blind
    simp only [session, same]
    cases ran : perform fuel operation.routine m with
    | done a m' =>
      rw [ran] at kept
      exact congrArg _ (inductionHypothesis later kept)
    | failed fault m' =>
      rw [ran] at kept
      exact congrArg _ (inductionHypothesis later kept)
    | exhausted => rfl

end Machine

/-- The plugins that can be found do not read the trace. -/
def World.Blind (w : World) : Prop :=
  ∀ name base p, Plugin.fetch w name base = .ok (.module p) → p.Blind

theorem FileTree.descend_of_empty {t : FileTree} (empty : t.entries = []) (goal here : Path)
    (names : List String) {entry : Entry} (found : t.descend goal here names = .ok entry) :
    entry = .directory := by
  have entryAt : ∀ p e, t.entryAt? p = some e → e = .directory := by
    intro p e present
    simp only [entryAt?, empty, List.find?_nil, List.any_nil, Bool.or_false] at present
    split at present
    · exact (Option.some.inj present).symm
    · cases present
  induction names generalizing here with
  | nil =>
    unfold descend at found
    cases present : t.entryAt? here with
    | none => simp [present] at found
    | some e =>
      simp only [present] at found
      cases found
      exact entryAt here _ present
  | cons name rest inductionHypothesis =>
    unfold descend at found
    cases present : t.entryAt? here with
    | none => simp [present] at found
    | some e =>
      obtain rfl := entryAt here e present
      simp only [present] at found
      split at found
      · exact inductionHypothesis _ found
      · cases found

theorem FileTree.find_of_empty {t : FileTree} (empty : t.entries = []) {p : Path} {entry : Entry}
    (found : t.find p = .ok entry) : entry = .directory := by
  unfold find at found
  split at found
  next => cases found
  next =>
    split at found
    next => cases found
    next => exact descend_of_empty empty p _ _ found

theorem World.blind_of_empty {w : World} (empty : w.files.entries = []) : w.Blind := by
  intro name base p found
  exfalso
  unfold Plugin.fetch at found
  split at found
  next => cases found
  next path _ =>
    split at found
    next => split at found <;> cases found
    next =>
      cases loaded : Module.load w.files path with
      | error e => simp [loaded] at found
      | ok x =>
        unfold Module.load at loaded
        split at loaded
        next file _ =>
          unfold Module.exportOf at loaded
          cases there : w.files.find file with
          | error e => simp [there] at loaded
          | ok entry =>
            obtain rfl := FileTree.find_of_empty empty there
            simp [there] at loaded
        next => cases loaded

theorem Plugin.Source.blind_failFor (fault : Fault) (error : String → LoadError) :
    (failFor fault error).Blind :=
  .bind (Routine.blind_ofExcept fault.text) fun _ => trivial

theorem Plugin.Source.blind_install {source : Source} (name : String)
    (blind : ∀ p, source = .module p → p.Blind) : (source.install name).Blind := by
  cases source with
  | script path text =>
    refine Routine.Blind.bind (Routine.blind_run text).attempt fun result => ?_
    cases result with
    | ok _ => exact Routine.blind_trace _
    | error fault => exact blind_failFor fault _
  | module p =>
    refine Routine.Blind.bind (blind p rfl).install.attempt fun result => ?_
    cases result with
    | ok _ => trivial
    | error fault => exact blind_failFor fault _

namespace CommandLine

open Machine

variable {w : World} {terminal : Terminal} {input : String} {args : List String} {job : Job}
  {fuel : Nat} {m m' : Machine} {exit : Exit}

namespace Job

theorem loadPlugins_unaware (blind : w.Blind) (plugins : List (String × Path))
    (descriptions : Table String) : Unaware (loadPlugins fuel w plugins descriptions) := by
  induction plugins generalizing descriptions with
  | nil => exact .pure descriptions
  | cons plugin rest inductionHypothesis =>
    obtain ⟨name, base⟩ := plugin
    unfold loadPlugins
    cases found : Plugin.fetch w name base with
    | error fault => exact .fail fault
    | ok source =>
      have installable : (source.install name).Blind :=
        source.blind_install name fun p same => blind name base p (same ▸ found)
      exact .bind (perform_unaware fuel installable) fun _ => inductionHypothesis _

theorem setUp_unaware (blind : job.world.Blind) : Unaware (job.setUp fuel) := by
  apply Unaware.bind (perform_unaware fuel Plugin.blind_core.install)
  intro _
  apply Unaware.bind (loadPlugins_unaware blind _ _).attempt
  intro result
  cases result with
  | ok descriptions => exact .pure _
  | error fault =>
    dsimp only
    cases fault.text with
    | ok text => exact .pure _
    | error complaint => exact .fail _

theorem report_unaware (fault : Fault) : Unaware (report fault) := by
  unfold report
  cases fault.told with
  | ok lines => exact .pure _
  | error complaint => exact .fail _

theorem runText_unaware (source : String) : Unaware (job.runText fuel source) := by
  unfold runText
  split
  · apply Unaware.bind (perform_unaware fuel (Routine.blind_parse source)).attempt
    intro result
    cases result with
    | ok reading => exact .pure _
    | error fault => exact report_unaware fault
  · apply Unaware.bind (perform_unaware fuel (Routine.blind_run source)).attempt
    intro result
    cases result with
    | ok _ => exact .bind (.inspect fun _ => rfl) fun _ => .pure _
    | error fault => exact report_unaware fault

/-- A job with a source does not depend on the trace. -/
theorem run_unaware (blind : job.world.Blind) (supplied : job.program ≠ .prompt) :
    Unaware (job.run fuel) := by
  apply Unaware.bind (setUp_unaware blind)
  intro result
  cases result with
  | error exit => exact .pure exit
  | ok descriptions =>
    dsimp only
    split
    · exact .bind (.inspect fun _ => rfl) fun _ => .pure _
    · cases program : job.program with
      | text source => exact runText_unaware source
      | noFile path => exact .pure _
      | unreadable e => exact .fail _
      | prompt => exact absurd program supplied

end Job

/-! One more `--trace` among the arguments. -/

theorem roles_trace (args : List String) : roles ("--trace" :: args) = .flag :: roles args := by
  rw [roles.eq_def]
  dsimp only
  rw [if_neg (by decide), if_pos (by decide)]

theorem argumentsOf_trace {role : Role} (other : role ≠ .flag) (args : List String) :
    argumentsOf role ("--trace" :: args) = argumentsOf role args := by
  simp [argumentsOf, roles_trace, other.symm]

theorem valueAfter?_trace {flag : String} (other : flag ≠ "--trace") (args : List String) :
    valueAfter? flag ("--trace" :: args) = valueAfter? flag args :=
  if_neg other.symm

theorem valuesAfter_trace {flag : String} (other : flag ≠ "--trace") (args : List String) :
    valuesAfter flag ("--trace" :: args) = valuesAfter flag args := by
  cases args with
  | nil => rfl
  | cons next rest => exact if_neg other.symm

theorem contains_trace {flag : String} (other : flag ≠ "--trace") (args : List String) :
    ("--trace" :: args).contains flag = args.contains flag := by
  simp [other]

/-- The job with one more `--trace` in front of its arguments. -/
def Job.withTrace (job : Job) : Job := { job with args := "--trace" :: job.args }

theorem plan_trace (w : World) (terminal : Terminal) (input : String) (args : List String) :
    plan w terminal input ("--trace" :: args) =
      (plan w terminal input args).map Job.withTrace := by
  unfold plan
  rw [contains_trace (by decide), contains_trace (by decide), argumentsOf_trace (by decide),
    valueAfter?_trace (by decide), valueAfter?_trace (by decide)]
  dsimp only
  split
  next => rfl
  next =>
    split
    next => rfl
    next =>
      split
      next => rfl
      next =>
        split
        next => rfl
        next => split <;> rfl

namespace Job

theorem program_withTrace (job : Job) : job.withTrace.program = job.program := by
  unfold program withTrace
  dsimp only
  rw [valueAfter?_trace (by decide), valueAfter?_trace (by decide), argumentsOf_trace (by decide)]

theorem plugins_withTrace (job : Job) : job.withTrace.plugins = job.plugins := by
  unfold plugins withTrace
  dsimp only
  rw [valuesAfter_trace (by decide)]

theorem run_withTrace (job : Job) (fuel : Nat) : job.withTrace.run fuel = job.run fuel := by
  have setUp : job.withTrace.setUp fuel = job.setUp fuel := by
    unfold setUp
    rw [plugins_withTrace]
    rfl
  have runText : ∀ source, job.withTrace.runText fuel source = job.runText fuel source := by
    intro source
    unfold runText withTrace
    dsimp only
    rw [contains_trace (by decide)]
  have listed : job.withTrace.args.contains "--list" = job.args.contains "--list" :=
    contains_trace (by decide) job.args
  unfold run
  simp only [setUp, runText, listed, program_withTrace]
  rfl

end Job

/-! The lines of the trace among the errors. -/

/-- A line that tracing writes. -/
def isTraceLine (line : String) : Bool := line.startsWith "  [trace] "

theorem isTraceLine_traceLine (message : String) : isTraceLine (traceLine message) = true := by
  rw [isTraceLine, String.startsWith_string_iff]
  simp [traceLine]

theorem isTraceLine_of_head {line : String} (head : line.toList.head? ≠ some ' ') :
    isTraceLine line = false := by
  rw [Bool.eq_false_iff]
  intro starts
  obtain ⟨rest, same⟩ := String.startsWith_string_iff.mp starts
  rw [← same] at head
  simp at head

/-- An exit whose own errors are no lines of a trace. -/
def Exit.Quiet (exit : Exit) : Prop := ∀ line ∈ exit.errors, isTraceLine line = false

theorem quiet_success (output : List String) : (Exit.success output).Quiet := by
  simp [Exit.Quiet, Exit.success]

theorem quiet_failure {line : String} (starts : line.toList.head? = some 'E') :
    (Exit.failure [line]).Quiet := by
  simp [Exit.Quiet, Exit.failure, isTraceLine_of_head, starts]

theorem quiet_report (fault : Fault) : (Exit.failure fault.report).Quiet := by
  unfold Fault.report
  split <;> simp [Exit.Quiet, Exit.failure, isTraceLine_of_head]

theorem quiet_of_plan (ended : plan w terminal input args = .error exit) : exit.Quiet := by
  have planned := planned w terminal input args
  rw [ended] at planned
  cases planned with
  | usage => exact quiet_success _
  | refusal starts => exact quiet_failure starts

theorem Job.Ends.quiet (ends : job.Ends m exit) : exit.Quiet := by
  cases ends with
  | badPlugin fault => exact quiet_failure (by simp)
  | noFile => exact quiet_failure (by simp)
  | reported _ fault => exact quiet_report fault
  | prompt => simp [Exit.Quiet]
  | _ => exact quiet_success _

/-- The exit without the lines that tracing wrote. -/
def Exit.withoutTrace (exit : Exit) : Exit :=
  { exit with errors := exit.errors.filter (!isTraceLine ·) }

theorem Exit.Quiet.filter_errors (quiet : exit.Quiet) :
    exit.errors.filter (!isTraceLine ·) = exit.errors := by
  rw [List.filter_eq_self]
  intro line member
  simp [quiet line member]

theorem Exit.Quiet.withoutTrace_after (quiet : exit.Quiet) (m : Machine) :
    (exit.after m).withoutTrace = exit.after m.untraced := by
  have dropped : (m.log.toList.map traceLine).filter (!isTraceLine ·) = [] := by
    simp [isTraceLine_traceLine]
  simp [Exit.withoutTrace, Exit.after, quiet.filter_errors, dropped, untraced]

/-- The exit that the outcome of a job leads to. -/
def finish : Outcome Exit → Option Exit
  | .done exit m => some (exit.after m)
  | .failed fault m => some (Exit.after m { status := .error fault })
  | .exhausted => none

theorem run_of_plan (plan_eq : plan w terminal input args = .ok job) :
    run fuel w terminal input args = finish (job.run fuel { tracing := job.tracing }) := by
  rw [run, plan_eq]
  dsimp only
  cases job.run fuel { tracing := job.tracing } <;> rfl

theorem Job.finish_withoutTrace (job : Job) (fuel : Nat) (m : Machine) :
    (finish (job.run fuel m)).map Exit.withoutTrace = finish (job.run fuel m).untraced := by
  cases ran : job.run fuel m with
  | done exit m' => exact congrArg some ((ends_of_run ran).quiet.withoutTrace_after m')
  | failed fault m' =>
    have quiet : Exit.Quiet { status := .error fault } := by simp [Exit.Quiet]
    exact congrArg some (quiet.withoutTrace_after m')
  | exhausted => rfl

/-- Arguments with code or a file among them. -/
def Supplies (args : List String) : Prop :=
  (valueAfter? "--file" args <|> valueAfter? "-f" args) ≠ none ∨ argumentsOf .code args ≠ []

theorem Job.program_ne_prompt (supplied : Supplies job.args) : job.program ≠ .prompt := by
  unfold program
  split
  next =>
    dsimp only
    split
    next => split <;> simp
    next => simp
  next noFile =>
    split
    next noCode =>
      rcases supplied with file | code
      · exact absurd noFile file
      · exact absurd noCode code
    next => simp

/-- Apart from the lines of the trace, the command line ends in the same way with one more
`--trace`. -/
theorem run_trace (fuel : Nat) (terminal : Terminal) (input : String) (blind : w.Blind)
    (supplied : Supplies args) :
    (run fuel w terminal input ("--trace" :: args)).map Exit.withoutTrace =
      (run fuel w terminal input args).map Exit.withoutTrace := by
  have planned := plan_trace w terminal input args
  cases plan_eq : plan w terminal input args with
  | error exit =>
    rw [plan_eq] at planned
    rw [run, run, planned, plan_eq]
    rfl
  | ok job =>
    rw [plan_eq] at planned
    obtain ⟨rfl, rfl⟩ := of_plan plan_eq
    have unaware : Unaware (job.run fuel) :=
      Job.run_unaware blind (Job.program_ne_prompt supplied)
    have fresh : ({ tracing := job.tracing } : Machine).Blind := by
      simp [Machine.Blind, Table.empty]
    rw [run_of_plan planned, run_of_plan plan_eq, Job.run_withTrace, Job.finish_withoutTrace,
      Job.finish_withoutTrace]
    exact congrArg finish (unaware.untraced_eq fresh ⟨rfl, rfl, rfl, rfl⟩)

/-- A run that does not trace has no lines of a trace. -/
theorem run_withoutTrace (fuel : Nat) (blind : w.Blind) (supplied : Supplies args)
    (silent : ∀ job, plan w terminal input args = .ok job → job.tracing = false) :
    (run fuel w terminal input args).map Exit.withoutTrace = run fuel w terminal input args := by
  cases plan_eq : plan w terminal input args with
  | error exit =>
    have quiet := quiet_of_plan plan_eq
    simp [run, plan_eq, Exit.withoutTrace, quiet.filter_errors]
  | ok job =>
    obtain ⟨rfl, rfl⟩ := of_plan plan_eq
    have unaware : Unaware (job.run fuel) :=
      Job.run_unaware blind (Job.program_ne_prompt supplied)
    have fresh : ({ tracing := false } : Machine).Blind := by simp [Machine.Blind, Table.empty]
    rw [run_of_plan plan_eq, Job.finish_withoutTrace, silent job plan_eq]
    exact congrArg finish (unaware _ fresh).1.symm

/-- Tracing changes nothing that a session or a command line with code or a file does. When nothing
else asks for a trace, all that `--trace` adds is its lines. -/
theorem tracing_changes_nothing (fuel : Nat) :
    (∀ (operations : List Operation) (m : Machine), m.Blind →
      (∀ operation ∈ operations, operation.routine.Blind) → m.log = #[] →
      session fuel operations { m with tracing := false } =
          (session fuel operations { m with tracing := true }).map Step.untraced ∧
        ∀ step ∈ session fuel operations { m with tracing := false },
          ∀ left ∈ step.left?, left.log = #[]) ∧
    ∀ (w : World) (terminal : Terminal) (input : String) (args : List String), w.Blind →
      Supplies args →
      (run fuel w terminal input ("--trace" :: args)).map
          (fun exit => (exit.status, exit.output)) =
        (run fuel w terminal input args).map (fun exit => (exit.status, exit.output)) ∧
      ("--trace" ∉ args →
        (∀ job, plan w terminal input args = .ok job → job.settings.trace? ≠ some true) →
        (run fuel w terminal input args).map (·.errors) =
          (run fuel w terminal input ("--trace" :: args)).map
            (·.errors.filter (!isTraceLine ·))) := by
  constructor
  · intro operations m blind readable fresh
    have off : ({ m with tracing := true } : Machine).untraced = { m with tracing := false } := by
      simp [untraced, fresh]
    have blind' : ({ m with tracing := true } : Machine).Blind := blind
    have same := session_untraced fuel readable blind'
    rw [off] at same
    refine ⟨same, fun step member left leaves => ?_⟩
    rw [same] at member
    obtain ⟨traced, _, rfl⟩ := List.mem_map.mp member
    exact Step.log_of_untraced leaves
  · intro w terminal input args blind supplied
    have same := run_trace fuel terminal input blind supplied
    constructor
    · have shown := congrArg (Option.map fun exit => (exit.status, exit.output)) same
      simpa [Option.map_map, Function.comp_def, Exit.withoutTrace] using shown
    · intro absent quiet
      have silent : ∀ job, plan w terminal input args = .ok job → job.tracing = false := by
        intro job plan_eq
        obtain ⟨_, rfl⟩ := of_plan plan_eq
        have unset := quiet job plan_eq
        cases setting : job.settings.trace? <;> simp_all [Job.tracing]
      rw [run_withoutTrace fuel blind supplied silent] at same
      simp [← same, Option.map_map, Function.comp_def, Exit.withoutTrace]

/-- A machine with a function that writes to the trace and fails. -/
def noisy : Machine where
  functions := ⟨[("noise", do
    Routine.trace "noise"
    Core.drop)]⟩

/-- Calls the function that fails, and goes on. -/
def calling : List Operation := [⟨Unit, Routine.invoke (.function "noise")⟩, ⟨Value, Routine.pop⟩]

/-- Code that fails in its second call. -/
def failing : List String := ["\"a\" d+"]

theorem tracing_changes_nothing_failing :
    session 2 calling { noisy with tracing := false } =
        (session 2 calling { noisy with tracing := true }).map Step.untraced ∧
      ∃ traced plain, run 5 bare {} "" ("--trace" :: failing) = some traced ∧
        run 5 bare {} "" failing = some plain ∧ plain.errors.length = 2 ∧
        traced.errors.length = 9 ∧ plain.errors = traced.errors.filter (!isTraceLine ·) := by
  have blind : noisy.Blind := by
    intro e member
    obtain rfl := List.mem_singleton.mp member
    exact Routine.Blind.bind (Routine.blind_trace "noise") fun _ => Core.blind_drop
  have readable : ∀ operation ∈ calling, operation.routine.Blind := by
    simp only [calling, List.forall_mem_cons]
    exact ⟨Routine.blind_invoke _, Routine.blind_ask.mpr trivial, by simp⟩
  have supplied : Supplies failing := .inr (by decide +kernel)
  have tracedLength : (run 5 bare {} "" ("--trace" :: failing)).map (·.errors.length) = some 9 := by
    decide +kernel
  have plainLength : (run 5 bare {} "" failing).map (·.errors.length) = some 2 := by
    decide +kernel
  have unset : (plan bare {} "" failing).toOption.all
      (fun job => decide (job.settings.trace? ≠ some true)) = true := by
    decide +kernel
  obtain ⟨traced, ended, tracedLength⟩ := Option.map_eq_some_iff.mp tracedLength
  obtain ⟨plain, ended', plainLength⟩ := Option.map_eq_some_iff.mp plainLength
  have quiet : ∀ job, plan bare {} "" failing = .ok job → job.settings.trace? ≠ some true := by
    intro job plan_eq
    simpa [plan_eq, Except.toOption] using unset
  have errors := ((tracing_changes_nothing 5).2 bare {} "" failing (World.blind_of_empty rfl)
    supplied).2 (by decide) quiet
  rw [ended, ended'] at errors
  exact ⟨((tracing_changes_nothing 2).1 calling noisy blind readable rfl).1, traced, plain, ended,
    ended', plainLength, tracedLength, Option.some.inj errors⟩

end CommandLine

end Cairn
