import Cairn.Proofs.PluginFailures
import Cairn.Proofs.Tracing

set_option autoImplicit false

/-!
# Exit codes

A command line reports how it went through its exit code: zero when nothing went wrong, and then all
that it wrote to the errors is the trace, or one, and then it wrote what went wrong. Each stage that
can fail has its own report. Two failures have none and cut the run off: a script that is there and
cannot be read, and a member of a plugin that raises a thing without a text when it is taken.
-/

namespace Cairn

namespace Action

variable {α β : Type} {action : Action α} {fault : Fault} {m m' : Machine}

theorem bind_eq_failed {later : α → Action β} :
    (action >>= later) m = .failed fault m' ↔
      action m = .failed fault m' ∨
        ∃ a middle, action m = .done a middle ∧ later a middle = .failed fault m' := by
  change (action m).bind later = _ ↔ _
  cases action m <;> simp [Outcome.bind]

theorem attempt_ne_failed : action.attempt m ≠ .failed fault m' := by
  unfold attempt
  cases action m <;> simp

/-- What goes on from an attempt fails only there. -/
theorem attempt_bind_eq_failed {later : Except Fault α → Action β} :
    (action.attempt >>= later) m = .failed fault m' ↔
      ∃ result middle, action m = .settled result middle ∧
        later result middle = .failed fault m' := by
  simp only [bind_eq_failed, attempt_ne_failed, attempt_eq_done, false_or]

end Action

namespace CommandLine

open Machine

variable {w : World} {terminal : Terminal} {input source : String} {args : List String} {job : Job}
  {fuel : Nat} {m m' : Machine} {exit : Exit} {fault : Fault}

/-- The script that arguments ask for. -/
def script? (args : List String) : Option String :=
  valueAfter? "--file" args <|> valueAfter? "-f" args

namespace Job

theorem program_eq_unreadable_iff {e : FileError} :
    job.program = .unreadable e ↔ ∃ file, script? job.args = some file ∧
      job.world.files.Unreadable (job.world.directory.resolve file) e := by
  unfold program script?
  cases valueAfter? "--file" job.args <|> valueAfter? "-f" job.args with
  | none =>
    dsimp only
    split <;> simp
  | some file =>
    dsimp only
    split
    next there =>
      rcases FileTree.read_of_contains there with ⟨text, read⟩ | ⟨found, unreadable⟩
      · have readable : ∀ e, ¬ job.world.files.Unreadable (job.world.directory.resolve file) e := by
          intro e unreadable
          cases unreadable.read.symm.trans read
        simp [read, readable]
      · rw [unreadable.read]
        constructor
        · rintro ⟨⟩
          exact ⟨file, rfl, unreadable⟩
        · rintro ⟨file', ⟨⟩, unreadable'⟩
          rw [Except.error.inj (unreadable.read.symm.trans unreadable'.read)]
    next absent =>
      have nothing : ∀ e, ¬ job.world.files.Unreadable (job.world.directory.resolve file) e := by
        intro e unreadable
        cases unreadable with
        | _ there => simp [FileTree.contains, there, Except.isOk, Except.toBool] at absent
      simp [nothing]

theorem report_ne_failed (told : fault.text = .ok fault.message) {fault' : Fault} :
    report fault m ≠ .failed fault' m' := by
  intro failed
  simp only [report, Fault.told, told, Except.map] at failed
  cases failed

theorem runText_ne_failed : job.runText fuel source m ≠ .failed fault m' := by
  unfold runText
  split
  all_goals
    intro failed
    obtain ⟨result, middle, ran, ended⟩ := Action.attempt_bind_eq_failed.mp failed
    cases result with
    | ok _ => cases ended
    | error inner => ?_
  · exact report_ne_failed (Plugin.Tells.ask (.parse source) _ _ _ _ ran) ended
  · exact report_ne_failed (text_of_run ran) ended

/-! Plugins that are loaded in turn. -/

variable {before rest : List (String × Path)} {descriptions known : Table String} {name : String}
  {base : Path} {label complaint : String}

theorem loadPlugins_of_error (fetched : Plugin.fetch w name base = .error fault) :
    loadPlugins fuel w ((name, base) :: rest) known = Action.fail fault := by
  rw [loadPlugins.eq_def]
  simp only [fetched]

theorem loadPlugins_of_ok {source : Plugin.Source}
    (fetched : Plugin.fetch w name base = .ok source) :
    loadPlugins fuel w ((name, base) :: rest) known =
      perform fuel (source.install name) >>= fun _ =>
        loadPlugins fuel w rest (source.describe known) := by
  rw [loadPlugins.eq_def]
  simp only [fetched]

/-- Only a plugin that cannot be looked up fails without a text. -/
theorem exists_escapes_of_loadPlugins {plugins : List (String × Path)}
    (failed : loadPlugins fuel w plugins known m = .failed (.mute label complaint) m') :
    ∃ before name base rest descriptions, plugins = before ++ (name, base) :: rest ∧
      loadPlugins fuel w before known m = .done descriptions m' ∧
      Plugin.Escapes w name base (.mute label complaint) := by
  -- A plugin that is found can only fail under its name, so the failure came from a look-up.
  induction plugins generalizing known m with
  | nil => cases failed
  | cons plugin rest inductionHypothesis =>
    obtain ⟨name, base⟩ := plugin
    cases fetched : Plugin.fetch w name base with
    | error fault =>
      rw [loadPlugins_of_error fetched] at failed
      obtain ⟨rfl, rfl⟩ := Outcome.failed.inj failed
      have escapes := (Plugin.fetch_fault fetched).resolve_left (by simp)
      exact ⟨[], name, base, rest, known, rfl, rfl, escapes⟩
    | ok source =>
      rw [loadPlugins_of_ok fetched] at failed
      rcases Action.bind_eq_failed.mp failed with installing | ⟨_, middle, installed, later⟩
      · obtain ⟨e, same, -⟩ := Plugin.install_fault installing
        cases same
      · obtain ⟨before, name', base', rest', descriptions, rfl, loaded, escapes⟩ :=
          inductionHypothesis later
        refine ⟨(name, base) :: before, name', base', rest', descriptions, rfl, ?_, escapes⟩
        rw [loadPlugins_of_ok fetched]
        exact Action.bind_eq_done.mpr ⟨_, middle, installed, loaded⟩

theorem loadPlugins_of_escapes (loaded : loadPlugins fuel w before known m = .done descriptions m')
    (escapes : Plugin.Escapes w name base fault) :
    loadPlugins fuel w (before ++ (name, base) :: rest) known m = .failed fault m' := by
  induction before generalizing known m with
  | nil =>
    obtain ⟨-, rfl⟩ := Outcome.done.inj loaded
    rw [List.nil_append, loadPlugins_of_error (Plugin.fetch_of_escapes escapes)]
    rfl
  | cons plugin before inductionHypothesis =>
    obtain ⟨name', base'⟩ := plugin
    rw [List.cons_append]
    cases fetched : Plugin.fetch w name' base' with
    | error fault =>
      rw [loadPlugins_of_error fetched] at loaded
      cases loaded
    | ok source =>
      rw [loadPlugins_of_ok fetched] at loaded ⊢
      obtain ⟨_, middle, installed, later⟩ := Action.bind_eq_done.mp loaded
      exact Action.bind_eq_failed.mpr (.inr ⟨_, middle, installed, inductionHypothesis later⟩)

/-- The core library and then some plugins load, and leave a machine. -/
def Loads (job : Job) (fuel : Nat) (plugins : List (String × Path)) (descriptions : Table String)
    (m : Machine) : Prop :=
  ∃ installed, installCore fuel { tracing := job.tracing } = .done () installed ∧
    loadPlugins fuel job.world plugins (Core.plugin.describe .empty) installed =
      .done descriptions m

theorem setUp_eq_ok_iff :
    job.setUp fuel { tracing := job.tracing } = .done (.ok descriptions) m ↔
      job.Loads fuel job.plugins descriptions m := by
  constructor
  · intro ready
    obtain ⟨_, installed, fresh, loading⟩ := Action.bind_eq_done.mp ready
    obtain ⟨result, middle, attempted, ended⟩ := Action.bind_eq_done.mp loading
    cases result with
    | ok found =>
      cases ended
      exact ⟨installed, fresh, Action.attempt_eq_done.mp attempted⟩
    | error fault => cases fault <;> cases ended
  · rintro ⟨installed, fresh, loaded⟩
    refine Action.bind_eq_done.mpr ⟨_, installed, fresh, Action.bind_eq_done.mpr ?_⟩
    exact ⟨.ok descriptions, m, Action.attempt_eq_done.mpr loaded, rfl⟩

theorem setUp_eq_failed_iff :
    job.setUp fuel { tracing := job.tracing } = .failed fault m ↔
      ∃ before name base rest descriptions label complaint,
        job.plugins = before ++ (name, base) :: rest ∧ job.Loads fuel before descriptions m ∧
        Plugin.Escapes job.world name base (.mute label complaint) ∧
        fault = .foreign label complaint := by
  constructor
  · intro failed
    rcases Action.bind_eq_failed.mp failed with installing | ⟨_, installed, fresh, loading⟩
    · exact absurd installing core_ne_failed
    obtain ⟨result, middle, ran, ended⟩ := Action.attempt_bind_eq_failed.mp loading
    cases result with
    | ok found => cases ended
    | error inner =>
      cases inner with
      | mute label complaint =>
        cases ended
        obtain ⟨before, name, base, rest, descriptions, plugins, loaded, escapes⟩ :=
          exists_escapes_of_loadPlugins ran
        exact ⟨before, name, base, rest, descriptions, label, complaint, plugins,
          ⟨installed, fresh, loaded⟩, escapes, rfl⟩
      | _ => cases ended
  · rintro ⟨before, name, base, rest, descriptions, label, complaint, plugins,
      ⟨installed, fresh, loaded⟩, escapes, rfl⟩
    refine Action.bind_eq_failed.mpr (.inr ⟨_, installed, fresh, ?_⟩)
    refine Action.attempt_bind_eq_failed.mpr ⟨.error (.mute label complaint), m, ?_, rfl⟩
    rw [plugins]
    exact loadPlugins_of_escapes loaded escapes

/-- A job comes to what cuts it off: a script that cannot be read, or a plugin with a member that
raises a thing without a text. -/
inductive CutOff (job : Job) (fuel : Nat) (m : Machine) : Fault → Prop where
  | script {descriptions : Table String} {file : String} {e : FileError}
      (loads : job.Loads fuel job.plugins descriptions m) (unlisted : "--list" ∉ job.args)
      (asked : script? job.args = some file)
      (unreadable : job.world.files.Unreadable (job.world.directory.resolve file) e) :
      CutOff job fuel m (.file e)
  | plugin {before rest : List (String × Path)} {name label complaint : String} {base : Path}
      {descriptions : Table String} (plugins : job.plugins = before ++ (name, base) :: rest)
      (loads : job.Loads fuel before descriptions m)
      (escapes : Plugin.Escapes job.world name base (.mute label complaint)) :
      CutOff job fuel m (.foreign label complaint)

theorem run_eq_failed_iff (code : job.program ≠ .prompt ∨ "--list" ∈ job.args) :
    job.run fuel { tracing := job.tracing } = .failed fault m ↔ job.CutOff fuel m fault := by
  constructor
  · intro failed
    rcases Action.bind_eq_failed.mp failed with failing | ⟨result, middle, ready, ended⟩
    · obtain ⟨before, name, base, rest, descriptions, label, complaint, plugins, loads, escapes,
        rfl⟩ := setUp_eq_failed_iff.mp failing
      exact .plugin plugins loads escapes
    cases result with
    | error early => cases ended
    | ok descriptions =>
      dsimp only at ended
      split at ended
      next => cases ended
      next unlisted =>
        have noList : "--list" ∉ job.args := by simpa using unlisted
        cases program : job.program <;> simp only [program] at ended
        case text source => exact absurd ended runText_ne_failed
        case noFile path => cases ended
        case unreadable e =>
          cases ended
          obtain ⟨file, asked, unreadable⟩ := program_eq_unreadable_iff.mp program
          exact .script (setUp_eq_ok_iff.mp ready) noList asked unreadable
        case prompt => exact absurd program (code.resolve_right noList)
  · rintro (⟨loads, noList, asked, unreadable⟩ | ⟨plugins, loads, escapes⟩)
    · have program := program_eq_unreadable_iff.mpr ⟨_, asked, unreadable⟩
      refine Action.bind_eq_failed.mpr (.inr ⟨_, m, setUp_eq_ok_iff.mpr loads, ?_⟩)
      dsimp only
      rw [if_neg (by simpa using noList), program]
      rfl
    · exact Action.bind_eq_failed.mpr (.inl (setUp_eq_failed_iff.mpr
        ⟨_, _, _, _, _, _, _, plugins, loads, escapes, rfl⟩))

end Job

/-- A run that tells by its exit code how it went: zero with nothing but a trace among the errors,
or one with something else among them. -/
def Exit.Reports (exit : Exit) : Prop :=
  exit.status = .ok 0 ∧ (∀ line ∈ exit.errors, isTraceLine line = true) ∨
    exit.status = .ok 1 ∧ ∃ line ∈ exit.errors, isTraceLine line = false

theorem Exit.Reports.after (reports : exit.Reports) (m : Machine) : (exit.after m).Reports := by
  rcases reports with ⟨success, traced⟩ | ⟨failure, line, member, other⟩
  · refine .inl ⟨success, fun line member => ?_⟩
    rcases List.mem_append.mp member with logged | own
    · obtain ⟨message, _, rfl⟩ := List.mem_map.mp logged
      exact isTraceLine_traceLine message
    · exact traced line own
  · exact .inr ⟨failure, line, List.mem_append_right _ member, other⟩

theorem reports_success (output : List String) : (Exit.success output).Reports :=
  .inl ⟨rfl, by simp [Exit.success]⟩

theorem reports_failure {errors : List String} (nonempty : errors ≠ [])
    (quiet : (Exit.failure errors).Quiet) : (Exit.failure errors).Reports := by
  obtain ⟨line, member⟩ := List.exists_mem_of_ne_nil errors nonempty
  exact .inr ⟨rfl, line, member, quiet line member⟩

theorem report_ne_nil (fault : Fault) : fault.report ≠ [] := by
  unfold Fault.report
  split <;> simp

theorem Job.Ends.reports (ends : job.Ends m exit) : exit.Reports := by
  have quiet := ends.quiet
  cases ends with
  | badPlugin fault => exact reports_failure (by simp) quiet
  | noFile => exact reports_failure (by simp) quiet
  | reported _ fault => exact reports_failure (report_ne_nil fault) quiet
  | prompt => exact .inl ⟨rfl, by simp⟩
  | _ => exact reports_success _

theorem reports_of_plan (ended : plan w terminal input args = .error exit) : exit.Reports := by
  have quiet := quiet_of_plan ended
  have planned := planned w terminal input args
  rw [ended] at planned
  cases planned with
  | usage => exact reports_success _
  | refusal => exact reports_failure (by simp) quiet

/-- Arguments whose run does not come to a prompt. -/
def Unattended (args : List String) : Prop :=
  Supplies args ∨ "--list" ∈ args ∨ "--help" ∈ args ∨ "-h" ∈ args

theorem Unattended.not_prompt (unattended : Unattended args)
    (planned : plan w terminal input args = .ok job) :
    job.program ≠ .prompt ∨ "--list" ∈ job.args := by
  obtain ⟨_, rfl⟩ := of_plan planned
  rcases unattended with supplied | list | help
  · exact .inl (Job.program_ne_prompt supplied)
  · exact .inr list
  · have asked : job.args.contains "--help" ∨ job.args.contains "-h" := by simpa using help
    rw [plan, if_pos asked] at planned
    cases planned

theorem Exit.not_reports_of_error (cutOff : exit.status = .error fault) : ¬ exit.Reports := by
  rintro (⟨success, _⟩ | ⟨failure, _⟩)
  · cases cutOff.symm.trans success
  · cases cutOff.symm.trans failure

/-- A command line leads to a job that is cut off. -/
def CutOff (fuel : Nat) (w : World) (terminal : Terminal) (input : String) (args : List String)
    (fault : Fault) : Prop :=
  ∃ job m, plan w terminal input args = .ok job ∧ job.CutOff fuel m fault

theorem cutOff_iff (unattended : Unattended args) (planned : plan w terminal input args = .ok job) :
    CutOff fuel w terminal input args fault ↔
      ∃ m, job.run fuel { tracing := job.tracing } = .failed fault m := by
  simp [CutOff, planned, Job.run_eq_failed_iff (unattended.not_prompt planned)]

/-- A run that ends reports through its exit code how it went, for any surroundings and any
arguments that do not ask for a prompt, unless it is cut off. -/
theorem run_reports_unless_cut_off (unattended : Unattended args)
    (ended : run fuel w terminal input args = some exit) :
    (exit.Reports ↔ ∀ fault, ¬ CutOff fuel w terminal input args fault) ∧
      ∀ fault, CutOff fuel w terminal input args fault → exit.status = .error fault := by
  cases planned : plan w terminal input args with
  | error early =>
    have never : ∀ fault, ¬ CutOff fuel w terminal input args fault := by
      simp [CutOff, planned]
    rw [run, planned] at ended
    cases ended
    exact ⟨iff_of_true (reports_of_plan planned) never, fun fault cut => absurd cut (never fault)⟩
  | ok job =>
    rw [run_of_plan planned] at ended
    cases ran : job.run fuel { tracing := job.tracing } with
    | exhausted =>
      rw [ran] at ended
      cases ended
    | done own m =>
      have never : ∀ fault, ¬ CutOff fuel w terminal input args fault := by
        simp [cutOff_iff unattended planned, ran]
      rw [ran] at ended
      cases ended
      have reports := (Job.ends_of_run ran).reports
      exact ⟨iff_of_true (reports.after m) never, fun fault cut => absurd cut (never fault)⟩
    | failed fault m =>
      have cut : CutOff fuel w terminal input args fault :=
        (cutOff_iff unattended planned).mpr ⟨m, ran⟩
      rw [ran] at ended
      cases ended
      refine ⟨iff_of_false (Exit.not_reports_of_error rfl) fun never => never fault cut, ?_⟩
      intro fault' cut'
      obtain ⟨m', ran'⟩ := (cutOff_iff unattended planned).mp cut'
      cases ran.symm.trans ran'
      rfl

/-- Surroundings with a directory, a script that is closed, and a plugin whose name raises a thing
without a text. -/
def hostile : World where
  files := ⟨[(⟨"", ["folder"]⟩, .directory), (⟨"", ["locked"]⟩, .closedFile),
    (⟨"", ["plugins", "shy.js"]⟩,
      .module (.ok (.record
        [("name", .error (.mute "TypeError" "Cannot convert object to primitive value"))])))]⟩
  directory := .root
  environment := {}

/-- What an exit was cut off by: a file, or a failure of a given class from outside. -/
def Exit.cutOffBy? (exit : Exit) : Option (FileError ⊕ String) :=
  match exit.status with
  | .error (.file e) => some (.inl e)
  | .error (.foreign label _) => some (.inr label)
  | _ => none

theorem Exit.status_of_cutOffBy? {cut : FileError ⊕ String} (cutOff : exit.cutOffBy? = some cut) :
    ∃ fault, exit.status = .error fault := by
  unfold cutOffBy? at cutOff
  split at cutOff
  next status => exact ⟨_, status⟩
  next status => exact ⟨_, status⟩
  next => cases cutOff

/-- Arguments that lead to what is hostile. -/
def daring : List (List String) :=
  [["--file", "folder"], ["--file", "locked"], ["--plugin", "shy", "1"]]

theorem unattended_daring : ∀ args ∈ daring, Unattended args := by
  unfold Unattended Supplies
  decide +kernel

theorem exists_run_daring : ∀ args ∈ daring,
    ∃ exit, run 5 hostile {} "" args = some exit ∧ ∃ fault, exit.status = .error fault := by
  have computed : ∀ args ∈ daring,
      ((run 5 hostile {} "" args).bind Exit.cutOffBy?).isSome = true := by decide +kernel
  intro args member
  obtain ⟨cut, found⟩ := Option.isSome_iff_exists.mp (computed args member)
  obtain ⟨exit, ended, cutOff⟩ := Option.bind_eq_some_iff.mp found
  exact ⟨exit, ended, exit.status_of_cutOffBy? cutOff⟩

/-- Code that fails while it is traced is reported; a directory, a closed script and a plugin with a
name that cannot be taken are not. -/
theorem run_reports_unless_cut_off_traced :
    (∃ exit, run 5 bare {} "" ("--trace" :: failing) = some exit ∧ exit.errors.length = 9 ∧
      exit.Reports) ∧
    ∀ args ∈ daring, ∃ fault, CutOff 5 hostile {} "" args fault := by
  constructor
  · have computed : (run 5 bare {} "" ("--trace" :: failing)).map
        (fun exit => (exit.errors.length, exit.status.toOption)) = some (9, some 1) := by
      decide +kernel
    obtain ⟨exit, ended, same⟩ := Option.map_eq_some_iff.mp computed
    obtain ⟨length, status⟩ := Prod.mk.inj same
    have unattended : Unattended ("--trace" :: failing) := .inl (.inr (by decide +kernel))
    obtain ⟨reports, cutOff⟩ := run_reports_unless_cut_off unattended ended
    refine ⟨exit, ended, length, reports.mpr fun fault cut => ?_⟩
    rw [cutOff fault cut] at status
    cases status
  · intro args member
    obtain ⟨exit, ended, fault, cutOff⟩ := exists_run_daring args member
    by_contra never
    have reports := (run_reports_unless_cut_off (unattended_daring args member) ended).1.mpr
      (not_exists.mp never)
    exact Exit.not_reports_of_error cutOff reports

/-- A script that is a directory ends a run without an exit code. -/
theorem directory_is_not_reported :
    Unattended ["--file", "folder"] ∧
      ∃ exit, run 5 hostile {} "" ["--file", "folder"] = some exit ∧
        (∃ fault, exit.status = .error fault) ∧ ¬ exit.Reports := by
  obtain ⟨exit, ended, fault, cutOff⟩ := exists_run_daring _ (List.mem_cons_self ..)
  exact ⟨unattended_daring _ (List.mem_cons_self ..), exit, ended, ⟨fault, cutOff⟩,
    Exit.not_reports_of_error cutOff⟩

end CommandLine

end Cairn
