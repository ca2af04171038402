import Cairn.Proofs.ArgumentRoles
import Cairn.Proofs.Tracing
import Cairn.Proofs.UnreadLines

set_option autoImplicit false

/-!
# Front ends

A source text can be executed as such, given to the command line as code, or typed at the prompt.
All three run it on a machine with the core library: where the plain execution succeeds, the two
front ends show its stack, where it fails, they report its failure, and what it prints is printed.
The prompt shows the stack after a failure too, unless the text could not be read.
-/

namespace Cairn

theorem Action.bind_apply {α β : Type} (action : Action α) (later : α → Action β) (m : Machine) :
    (action >>= later) m = (action m).bind later := rfl

namespace Machine

variable {m created : Machine} {fuel k : Nat} {source : String}

/-- Only the cells of a terminal depend on its width and on the functions. -/
theorem view_format {mode : Mode} (plain : mode ≠ .human) (isFunction : String → Bool)
    (width width' : Nat) (m : Machine) :
    m.view.format mode width' = Display.stack isFunction mode width m.stack := by
  cases mode with
  | human => exact absurd rfl plain
  | _ => rfl

theorem core_unique {created' : Machine} (first : core fuel false = .done () created)
    (second : core k false = .done () created') : created = created' :=
  (perform_unique (settles_of_core first) (settles_of_core second)).2

/-- A plain execution traces nothing. -/
theorem execute_untraced (fuel : Nat) (source : String) :
    (execute fuel source).untraced = execute fuel source := by
  have unaware : Unaware (installCore fuel >>= fun _ => run fuel source) :=
    .bind (perform_unaware fuel Plugin.blind_core.install) fun _ =>
      perform_unaware fuel (Routine.blind_run source)
  have fresh : ({} : Machine).Blind := by simp [Machine.Blind, Table.empty]
  have executed : execute fuel source = (installCore fuel >>= fun _ => run fuel source) {} := by
    rw [Action.bind_apply, execute, core]
  rw [executed]
  exact (unaware {} fresh).1.symm

theorem log_of_execute {result : Except Fault Unit}
    (ran : execute fuel source = .settled result m) : m.log = #[] := by
  have same := execute_untraced fuel source
  rw [ran] at same
  have untraced : m.untraced = m := by
    cases result <;> injection same
  rw [← untraced]
  rfl

/-- An execution runs its source on the machine with the core library. -/
theorem run_of_execute {result : Except Fault Unit} (installed : core k false = .done () created)
    (ran : execute fuel source = .settled result m) :
    run fuel source created = .settled result m := by
  unfold execute at ran
  cases fresh : core fuel false with
  | done _ created' =>
    obtain rfl := core_unique installed fresh
    rw [fresh] at ran
    exact ran
  | failed fault m' => exact absurd fresh core_ne_failed
  | exhausted =>
    rw [fresh] at ran
    cases result <;> cases ran

end Machine

namespace Prompt

open Machine

/-- What is answered to a line that ended in a result and left a stack. -/
def reply (shown : List String) : Except Fault Unit → List String
  | .ok _ => shown
  | .error (.reading cause offset) => (Fault.reading cause offset).report
  | .error fault => fault.report ++ shown

theorem answer_of_run {line : String} {mode : Mode} {width fuel : Nat} {m m' : Machine}
    {result : Except Fault Unit} (ran : run fuel line m = .settled result m') :
    perform fuel (answer line mode width) m =
      .done (reply (m'.view.format mode width) result) m' := by
  refine (perform_attempt_bind fuel (Routine.run line) _ m).trans ?_
  change (run fuel line m).andThen _ = _
  rw [ran]
  cases result with
  | ok _ => rfl
  | error fault =>
    have told := text_of_run ran
    cases fault with
    | mute label complaint => cases told
    | _ => rfl

end Prompt

namespace CommandLine

open Machine

variable {w : World} {terminal : Terminal} {input : String} {args : List String} {mode : Mode}
  {fuel : Nat} {m : Machine} {flag arg : String}

/-- An argument that is neither a flag nor looks like one. -/
def IsCode (arg : String) : Prop :=
  arg ∉ valueFlags ++ switches ∧ arg.startsWith "--" = false

/-- Neither a file nor a variable sets anything. -/
structure Unset (w : World) : Prop where
  files : ∀ name ∈ Settings.fileNames, w.files.contains (w.directory.resolve name) = false
  environment : w.environment = {}

/-- The arguments that ask for a mode and give code. -/
def asking (mode : Mode) (args : List String) : List String := "--output" :: mode.name :: args

theorem roles_of_code (code : ∀ arg ∈ args, IsCode arg) : roles args = args.map fun _ => .code := by
  fun_induction roles args with
  | case1 => rfl
  | case2 arg takes
  | case3 arg takes next rest inductionHypothesis =>
    exact absurd (List.mem_append_left _ (by simpa using takes)) (code arg (by simp)).1
  | case4 arg rest takes isSwitch inductionHypothesis =>
    exact absurd (List.mem_append_right _ (by simpa using isSwitch)) (code arg (by simp)).1
  | case5 arg rest takes isSwitch isUnknown inductionHypothesis =>
    cases (code arg (by simp)).2.symm.trans isUnknown
  | case6 arg rest takes isSwitch isCode inductionHypothesis =>
    rw [inductionHypothesis (List.forall_mem_cons.mp code).2]
    rfl

theorem argumentsOf_asking (code : ∀ arg ∈ args, IsCode arg) :
    argumentsOf .code (asking mode args) = args ∧ argumentsOf .unknown (asking mode args) = [] := by
  have scanned : roles (asking mode args) =
      .flag :: .value "--output" :: args.map fun _ => .code := by
    rw [← roles_of_code code]
    rfl
  unfold argumentsOf
  rw [scanned, asking, List.zip_cons_cons, List.zip_cons_cons, ← List.map_prod_left_eq_zip]
  simp [List.filter_map, Function.comp_def]

theorem notMem_asking (code : ∀ arg ∈ args, IsCode arg) (known : flag ∈ valueFlags ++ switches)
    (other : flag ≠ "--output") : flag ∉ asking mode args := by
  intro member
  rcases List.mem_cons.mp member with rfl | member
  · exact other rfl
  · rcases List.mem_cons.mp member with rfl | member
    · revert known
      cases mode <;> decide
    · exact (code flag member).1 known

theorem valueAfter?_of_notMem (absent : flag ∉ args) : valueAfter? flag args = none := by
  have notFound : args.findIdx? (· = flag) = none := by
    rw [List.findIdx?_eq_none_iff]
    intro arg member
    simpa using ne_of_mem_of_not_mem member absent
  rw [valueAfter?_eq, notFound]
  rfl

theorem valuesAfter_of_notMem (absent : flag ∉ args) : valuesAfter flag args = [] := by
  rw [valuesAfter_eq, List.map_eq_nil_iff, List.filter_eq_nil_iff]
  intro pair member
  simpa using ne_of_mem_of_not_mem (List.of_mem_zip member).1 absent

theorem Unset.load (unset : Unset w) : Settings.load w none = .ok ({}, w.directory) := by
  have notFound : (Settings.fileNames.map w.directory.resolve).find? w.files.contains = none := by
    rw [List.find?_eq_none]
    intro path member
    obtain ⟨name, listed, rfl⟩ := List.mem_map.mp member
    simp [unset.files name listed]
  unfold Settings.load
  rw [Option.filter_none]
  dsimp only
  rw [notFound]
  rfl

theorem Unset.overlay (unset : Unset w) : Settings.overlay w.environment {} = .ok {} := by
  rw [unset.environment]
  rfl

theorem ofName?_name (mode : Mode) : Mode.ofName? mode.name = some mode := by
  cases mode <;> decide

/-- The job of running code and showing its stack in a mode. -/
def codeJob (w : World) (terminal : Terminal) (input : String) (mode : Mode)
    (args : List String) : Job :=
  { world := w, terminal, input, args := asking mode args, settings := {}, base := w.directory,
    mode }

theorem plan_asking (unset : Unset w) (code : ∀ arg ∈ args, IsCode arg) :
    plan w terminal input (asking mode args) = .ok (codeJob w terminal input mode args) := by
  have noHelp : "--help" ∉ asking mode args := notMem_asking code (by decide) (by decide)
  have noShortHelp : "-h" ∉ asking mode args := notMem_asking code (by decide) (by decide)
  have noConfig : valueAfter? "--config" (asking mode args) = none :=
    valueAfter?_of_notMem (notMem_asking code (by decide) (by decide))
  have output : valueAfter? "--output" (asking mode args) = some mode.name := rfl
  unfold plan
  rw [if_neg (by simp [noHelp, noShortHelp]), (argumentsOf_asking code).2]
  simp only [noConfig, unset.load, output, ofName?_name, bind, Except.bind, unset.overlay, pure,
    Except.pure, codeJob]

/-- The exit after a source text ran to its end. -/
def shownExit (mode : Mode) (width : Nat) (result : Except Fault Unit) (m : Machine) : Exit :=
  match result with
  | .ok _ => .success (m.view.format mode width)
  | .error fault => .failure fault.report

theorem setUp_codeJob (code : ∀ arg ∈ args, IsCode arg) (m : Machine) :
    (codeJob w terminal input mode args).setUp fuel m =
      (installCore fuel m).bind fun _ => .done (.ok (Core.plugin.describe .empty)) := by
  have noPlugins : (codeJob w terminal input mode args).plugins = [] :=
    congrArg _ (valuesAfter_of_notMem (notMem_asking code (by decide) (by decide)))
  rw [Job.setUp, Action.bind_apply, noPlugins]
  rfl

theorem program_codeJob (nonempty : args ≠ []) (code : ∀ arg ∈ args, IsCode arg) :
    (codeJob w terminal input mode args).program = .text (" ".intercalate args) := by
  have noFile : valueAfter? "--file" (asking mode args) = none :=
    valueAfter?_of_notMem (notMem_asking code (by decide) (by decide))
  have noShortFile : valueAfter? "-f" (asking mode args) = none :=
    valueAfter?_of_notMem (notMem_asking code (by decide) (by decide))
  unfold Job.program codeJob
  dsimp only
  rw [noFile, noShortFile, (argumentsOf_asking code).1]
  cases args with
  | nil => exact absurd rfl nonempty
  | cons arg rest => rfl

theorem runText_codeJob (code : ∀ arg ∈ args, IsCode arg) (source : String) (m : Machine) :
    (codeJob w terminal input mode args).runText fuel source m =
      (Machine.run fuel source m).andThen fun result m' =>
        .done (shownExit mode terminal.width.toNat result m') m' := by
  have noParse : "--parse" ∉ asking mode args := notMem_asking code (by decide) (by decide)
  rw [Job.runText, if_neg (by simpa [codeJob] using noParse), Action.bind_apply, Action.attempt]
  cases ran : Machine.run fuel source m with
  | failed fault m' =>
    have told := text_of_run ran
    cases fault with
    | mute label complaint => cases told
    | _ => rfl
  | _ => rfl

theorem run_codeJob (nonempty : args ≠ []) (code : ∀ arg ∈ args, IsCode arg) (m : Machine) :
    (codeJob w terminal input mode args).run fuel m = (installCore fuel m).bind fun _ m' =>
      (Machine.run fuel (" ".intercalate args) m').andThen fun result m'' =>
        .done (shownExit mode terminal.width.toNat result m'') m'' := by
  have noList : "--list" ∉ asking mode args := notMem_asking code (by decide) (by decide)
  rw [Job.run, Action.bind_apply, setUp_codeJob code]
  cases installCore fuel m with
  | failed fault m' => rfl
  | exhausted => rfl
  | done _ m' =>
    simp only [Outcome.bind]
    rw [if_neg (by simpa [codeJob] using noList), program_codeJob nonempty code]
    exact runText_codeJob code _ m'

/-- The command line does with code what its plain execution does, and shows how that ended. -/
theorem run_asking (unset : Unset w) (nonempty : args ≠ []) (code : ∀ arg ∈ args, IsCode arg) :
    run fuel w terminal input (asking mode args) =
      finish ((execute fuel (" ".intercalate args)).andThen fun result m =>
        .done (shownExit mode terminal.width.toNat result m) m) := by
  have untracing : (codeJob w terminal input mode args).tracing = false := by
    have noTrace : "--trace" ∉ asking mode args := notMem_asking code (by decide) (by decide)
    simpa [Job.tracing, codeJob] using noTrace
  rw [run_of_plan (plan_asking unset code), run_codeJob nonempty code, untracing, execute, core]
  cases installed : installCore fuel { tracing := false } with
  | done _ created => rfl
  | failed fault m => exact absurd installed core_ne_failed
  | exhausted => rfl

theorem run_of_settled {result : Except Fault Unit} (unset : Unset w) (nonempty : args ≠ [])
    (code : ∀ arg ∈ args, IsCode arg)
    (ran : execute fuel (" ".intercalate args) = .settled result m) :
    let exit := shownExit mode terminal.width.toNat result m
    run fuel w terminal input (asking mode args) =
      some { exit with output := m.output.toList ++ exit.output } := by
  have silent := log_of_execute ran
  rw [run_asking unset nonempty code, ran]
  cases result <;> simp [Outcome.settled, Outcome.andThen, finish, Exit.after, silent]

/-- The command line with arguments that are all code, and the prompt with one line, do what
executing the arguments does, and show its stack or report its failure. -/
theorem front_ends_agree (w : World) (unset : Unset w) (mode : Mode) (plain : mode ≠ .human)
    (args : List String) (nonempty : args ≠ []) (code : ∀ arg ∈ args, IsCode arg)
    (terminal : Terminal) (input : String) (isFunction : String → Bool) (width fuel : Nat) :
    (∀ m, execute fuel (" ".intercalate args) = .done () m →
      run fuel w terminal input ("--output" :: mode.name :: args) =
        some { status := .ok 0
               output := m.output.toList ++ Display.stack isFunction mode width m.stack } ∧
      ∀ k created, core k false = .done () created → created.output = #[] ∧
        perform fuel (Prompt.answer (" ".intercalate args) mode width) created =
          .done (Display.stack isFunction mode width m.stack) m) ∧
    (∀ fault m, execute fuel (" ".intercalate args) = .failed fault m →
      run fuel w terminal input ("--output" :: mode.name :: args) =
        some { status := .ok 1, output := m.output.toList, errors := fault.report } ∧
      ∀ k created, core k false = .done () created → created.output = #[] ∧
        perform fuel (Prompt.answer (" ".intercalate args) mode width) created =
          .done (match fault with
            | .reading .. => fault.report
            | _ => fault.report ++ Display.stack isFunction mode width m.stack) m) ∧
    (execute fuel (" ".intercalate args) = .exhausted →
      run fuel w terminal input ("--output" :: mode.name :: args) = none) := by
  refine ⟨fun m ran => ?_, fun fault m ran => ?_, fun ran => ?_⟩
  · have settled : execute fuel (" ".intercalate args) = .settled (.ok ()) m := ran
    refine ⟨(run_of_settled unset nonempty code settled).trans ?_, fun k created installed => ?_⟩
    · rw [← view_format plain isFunction width terminal.width.toNat]
      rfl
    · rw [← view_format plain isFunction width width]
      exact ⟨output_of_core installed,
        Prompt.answer_of_run (Machine.run_of_execute installed settled)⟩
  · have settled : execute fuel (" ".intercalate args) = .settled (.error fault) m := ran
    refine ⟨(run_of_settled unset nonempty code settled).trans ?_, fun k created installed => ?_⟩
    · simp [shownExit, Exit.failure]
    · rw [← view_format plain isFunction width width]
      refine ⟨output_of_core installed,
        (Prompt.answer_of_run (Machine.run_of_execute installed settled)).trans ?_⟩
      cases fault <;> rfl
  · exact (run_asking unset nonempty code).trans (by rw [ran]; rfl)

/-- Code that prints a flag and then fails, in arguments that look like options. -/
def misleading : List String := ["\"--list\"p", "-p"]

theorem front_ends_agree_misleading :
    ∃ k created fault m, core k false = .done () created ∧
      execute 5 (" ".intercalate misleading) = .failed fault m ∧
      run 5 bare {} "" ("--output" :: Mode.simple.name :: misleading) =
        some { status := .ok 1, output := ["--list"], errors := fault.report } ∧
      perform 5 (Prompt.answer (" ".intercalate misleading) .simple 80) created =
        .done (fault.report ++ [""]) m := by
  have unset : Unset bare := ⟨by decide +kernel, rfl⟩
  have code : ∀ arg ∈ misleading, IsCode arg := by
    unfold IsCode
    decide +kernel
  have computed : (match execute 5 (" ".intercalate misleading) with
      | .failed _ m => m.output.toList == ["--list"] && m.stack.isEmpty
      | .done .. | .exhausted => false) = true := by
    decide +kernel
  obtain ⟨k, created, installed, _⟩ := exists_core false
  split at computed
  next fault m failed =>
    obtain ⟨printed, empty⟩ : m.output.toList = ["--list"] ∧ m.stack = [] := by simpa using computed
    obtain ⟨-, agrees, -⟩ := front_ends_agree bare unset .simple (by decide) misleading (by decide)
      code {} "" (fun _ => false) 80 5
    obtain ⟨ended, answers⟩ := agrees fault m failed
    obtain ⟨silent, answered⟩ := answers k created installed
    rw [printed] at ended
    rw [empty] at answered
    refine ⟨k, created, fault, m, installed, failed, ended, ?_⟩
    cases fault with
    | reading cause offset =>
      -- A text that cannot be read prints nothing.
      have settled : execute 5 (" ".intercalate misleading) =
          .settled (.error (.reading cause offset)) m := failed
      obtain ⟨rfl, -⟩ := run_reading_fault ⟨5, Machine.run_of_execute installed settled⟩
      rw [silent] at printed
      cases printed
    | _ => exact answered
  next => cases computed
  next => cases computed

end CommandLine

end Cairn
