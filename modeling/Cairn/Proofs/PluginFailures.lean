import Cairn.Plugin.Loading
import Cairn.Proofs.Enumeration
import Cairn.Proofs.PluginShapes
import Cairn.Proofs.UnreadLines

set_option autoImplicit false

/-!
# Plugins that fail to load

What a look-up of a plugin can answer, and what can go wrong after it. Whatever a script or the
setup of a module raises is told under the name of the plugin, and so is most of what goes wrong
before. Three steps are taken outside of all that: a script is read, the text of what a module threw
is asked for, and the members of what a module exports are taken.
-/

namespace Cairn

namespace LoadError

/-- The plugin that could not be loaded. -/
def plugin : LoadError → String
  | .notFound name | .scriptFailed name _ | .notLoadable name _ | .invalid name
  | .setupFailed name _ => name

/-- In every message the name of the plugin stands between quotes. -/
theorem exists_message_eq (e : LoadError) :
    ∃ before after, e.message = before ++ e.plugin ++ after ∧
      "\"".toList <:+ before.toList ∧ "\"".toList <+: after.toList := by
  cases e with
  | notFound name => exact ⟨"Plugin \"", _, rfl, by decide, by decide⟩
  | scriptFailed name reason =>
    exact ⟨"Plugin \"", "\" failed: " ++ reason, String.append_assoc, by decide, by simp⟩
  | notLoadable name reason =>
    exact ⟨"Failed to load plugin \"", "\": " ++ reason, String.append_assoc, by decide, by simp⟩
  | invalid name => exact ⟨"Plugin \"", _, rfl, by decide, by decide⟩
  | setupFailed name reason =>
    exact ⟨"Plugin \"", "\" setup failed: " ++ reason, String.append_assoc, by decide, by simp⟩

theorem quoted_plugin_infix (e : LoadError) :
    ("\"" ++ e.plugin ++ "\"").toList <:+: e.message.toList := by
  obtain ⟨before, after, same, ⟨start, opens⟩, ⟨rest, closes⟩⟩ := e.exists_message_eq
  refine ⟨start, rest, ?_⟩
  simp only [same, String.toList_append, ← opens, ← closes, List.append_assoc]

end LoadError

/-- What is found at a path has a text, or it is there and cannot be read. -/
inductive FileTree.Unreadable (t : FileTree) (p : Path) : FileError → Prop where
  | directory (there : t.find p = .ok .directory) : Unreadable t p .isDirectory
  | closedFile (there : t.find p = .ok .closedFile) : Unreadable t p (.denied p.toString)
  | closedDirectory (there : t.find p = .ok .closedDirectory) : Unreadable t p (.denied p.toString)

theorem FileTree.Unreadable.read {t : FileTree} {p : Path} {e : FileError}
    (unreadable : t.Unreadable p e) : t.read p = .error e := by
  cases unreadable with
  | _ there => rw [FileTree.read, there]

theorem FileTree.read_of_contains {t : FileTree} {p : Path} (there : t.contains p = true) :
    (∃ text, t.read p = .ok text) ∨ ∃ e, t.Unreadable p e := by
  unfold contains at there
  unfold read
  cases found : t.find p with
  | error e =>
    rw [found] at there
    cases there
  | ok entry =>
    cases entry with
    | directory => exact .inr ⟨_, .directory found⟩
    | text content => exact .inl ⟨content, rfl⟩
    | module result => exact .inl ⟨"", rfl⟩
    | closedFile => exact .inr ⟨_, .closedFile found⟩
    | closedDirectory => exact .inr ⟨_, .closedDirectory found⟩

namespace Plugin

open Machine

variable {w : World} {name : String} {base path : Path} {fault : Fault} {m m' : Machine}
  {fuel : Nat} {x : Export} {p : Plugin}

/-- The file that a name stands for is a script. -/
def FindsScript (w : World) (name : String) (base path : Path) : Prop :=
  locate? w name base = some path ∧ path.toString.endsWith ".cairn" = true

/-- The file that a name stands for is a module. -/
def FindsModule (w : World) (name : String) (base path : Path) : Prop :=
  locate? w name base = some path ∧ path.toString.endsWith ".cairn" = false

/-- Taking what a module exports fails: its default, or a member of what stands for the whole. -/
inductive Refuses (x : Export) (fault : Fault) : Prop where
  | default (raises : x.primary = .error fault)
  | member {y : Export} (primary : x.primary = .ok y) (raises : y.Raises fault)

/-- The failures of a look-up that are not told under the name of the plugin: an unreadable script,
a thing without a text that a module throws, and a member that cannot be taken. -/
inductive Escapes (w : World) (name : String) (base : Path) : Fault → Prop where
  | script {path : Path} {e : FileError} (found : FindsScript w name base path)
      (unreadable : w.files.Unreadable path e) : Escapes w name base (.file e)
  | mute {path : Path} {label complaint : String} (found : FindsModule w name base path)
      (thrown : Module.load w.files path = .error (.failed (.mute label complaint))) :
      Escapes w name base (.foreign label complaint)
  | member {path : Path} {x : Export} {fault : Fault} (found : FindsModule w name base path)
      (loaded : Module.load w.files path = .ok x) (refuses : Refuses x fault) :
      Escapes w name base fault

theorem fetch_missing (missing : locate? w name base = none) :
    fetch w name base = .error (.plugin (.notFound name)) := by
  unfold fetch
  rw [missing]

theorem fetch_script (found : FindsScript w name base path) :
    fetch w name base =
      match w.files.read path with
      | .ok text => .ok (.script path text)
      | .error e => .error (.file e) := by
  unfold fetch
  rw [found.1]
  exact if_pos found.2

theorem fetch_module (found : FindsModule w name base path) :
    fetch w name base =
      match Module.load w.files path with
      | .error e => .error (refuse name e)
      | .ok x => accept name x := by
  unfold fetch
  rw [found.1]
  exact if_neg (by simp [found.2])

theorem accept_eq_error_iff :
    accept name x = .error fault ↔ Refuses x fault ∨
      ∃ y, x.primary = .ok y ∧ y.plugin? = .ok none ∧ fault = .plugin (.invalid name) := by
  unfold accept
  constructor
  · intro failed
    rcases Export.bind_eq_error.mp failed with raised | ⟨y, primary, checked⟩
    · exact .inl (.default raised)
    rcases Export.bind_eq_error.mp checked with raised | ⟨found?, verdict, rejected⟩
    · exact .inl (.member primary (Export.plugin?_eq_error_iff.mp raised))
    cases found? with
    | some p => cases rejected
    | none =>
      cases rejected
      exact .inr ⟨y, primary, verdict, rfl⟩
  · rintro ((raises | ⟨primary, raises⟩) | ⟨y, primary, verdict, rfl⟩)
    · exact Export.bind_eq_error.mpr (.inl raises)
    · have checked := Export.plugin?_eq_error_iff.mpr raises
      exact Export.bind_eq_error.mpr
        (.inr ⟨_, primary, Export.bind_eq_error.mpr (.inl checked)⟩)
    · exact Export.bind_eq_error.mpr
        (.inr ⟨_, primary, Export.bind_eq_error.mpr (.inr ⟨_, verdict, rfl⟩)⟩)

/-- What a module that does not load threw has a text, or the complaint about it goes on. -/
theorem refuse_cases (name : String) (e : ModuleError) :
    (∃ reason, refuse name e = .plugin (.notLoadable name reason)) ∨
      ∃ label complaint, e = .failed (.mute label complaint) ∧
        refuse name e = .foreign label complaint := by
  cases e with
  | failed fault =>
    cases fault with
    | mute label complaint => exact .inr ⟨label, complaint, rfl, rfl⟩
    | _ => exact .inl ⟨_, rfl⟩
  | _ => exact .inl ⟨_, rfl⟩

theorem fetch_of_escapes (escapes : Escapes w name base fault) :
    fetch w name base = .error fault := by
  cases escapes with
  | script found unreadable => rw [fetch_script found, unreadable.read]
  | mute found thrown =>
    rw [fetch_module found, thrown]
    rfl
  | member found loaded refuses =>
    rw [fetch_module found, loaded]
    exact accept_eq_error_iff.mpr (.inl refuses)

/-- A look-up that fails is a failure of the plugin, or it is one of those that escape. -/
theorem fetch_fault (failed : fetch w name base = .error fault) :
    (∃ e : LoadError, fault = .plugin e ∧ e.plugin = name) ∨ Escapes w name base fault := by
  cases located : locate? w name base with
  | none =>
    rw [fetch_missing located] at failed
    cases failed
    exact .inl ⟨_, rfl, rfl⟩
  | some path =>
    -- What was found is there, so a script fails only if it cannot be read.
    by_cases isScript : path.toString.endsWith ".cairn" = true
    · have found : FindsScript w name base path := ⟨located, isScript⟩
      rcases FileTree.read_of_contains (List.find?_some located) with
        ⟨text, read⟩ | ⟨e, unreadable⟩
      · rw [fetch_script found, read] at failed
        cases failed
      · rw [fetch_script found, unreadable.read] at failed
        cases failed
        exact .inr (.script found unreadable)
    · have found : FindsModule w name base path := ⟨located, by simpa using isScript⟩
      rw [fetch_module found] at failed
      cases loaded : Module.load w.files path with
      | error e =>
        rw [loaded] at failed
        rcases refuse_cases name e with ⟨reason, refused⟩ | ⟨label, complaint, rfl, refused⟩
        · cases refused.symm.trans (Except.error.inj failed)
          exact .inl ⟨_, rfl, rfl⟩
        · cases refused.symm.trans (Except.error.inj failed)
          exact .inr (.mute found loaded)
      | ok x =>
        rw [loaded] at failed
        rcases accept_eq_error_iff.mp failed with refuses | ⟨_, _, _, rfl⟩
        · exact .inr (.member found loaded refuses)
        · exact .inl ⟨_, rfl, rfl⟩

theorem perform_load (fuel : Nat) (w : World) (name : String) (base : Path) (m : Machine) :
    perform fuel (load w name base) m =
      match fetch w name base with
      | .ok source => perform fuel (source.install name) m
      | .error fault => .failed fault m := by
  unfold load
  cases fetch w name base <;> rfl

/-- A routine whose failures have a text. -/
def Tells {α : Type} (r : Routine α) : Prop :=
  ∀ fuel m fault m', perform fuel r m = .failed fault m' → fault.text = .ok fault.message

namespace Tells

variable {α β : Type}

theorem bind {r : Routine α} {f : α → Routine β} (first : Tells r) (later : ∀ a, Tells (f a)) :
    Tells (r >>= f) := by
  intro fuel m fault m' failed
  rw [perform_bind] at failed
  cases ran : perform fuel r m with
  | done a middle =>
    rw [ran] at failed
    exact later a fuel middle fault m' failed
  | failed inner middle =>
    rw [ran] at failed
    cases failed
    exact first fuel m fault m' ran
  | exhausted =>
    rw [ran] at failed
    cases failed

theorem ask (request : Request) : Tells (Routine.ask request) := by
  intro fuel m fault m' failed
  rw [perform_ask] at failed
  cases nested : request.nests with
  | false =>
    rcases Configuration.fault_of_respond nested failed with
      ⟨cause, rfl⟩ | ⟨source, cause, offset, -, rfl⟩ | ⟨symbol, name, -, -, rfl⟩ <;> rfl
  | true =>
    cases request with
    | evaluate tokens => exact (evaluate_fault failed).text
    | invoke value => exact (invoke_fault failed).text
    | _ => cases nested

theorem done (a : α) : Tells (.done a) := by
  intro fuel m fault m' failed
  cases failed

theorem define (name : String) (body : Routine Unit) : Tells (.define name body (.done ())) := by
  intro fuel m fault m' failed
  cases failed

theorem addFunction (symbol? : Option String) (name : String) (body : Routine Unit) :
    Tells (Routine.addFunction symbol? name body) := by
  cases symbol? with
  | none => exact .define name body
  | some symbol => exact .bind (.ask (.assignOperator symbol name)) fun _ => .define name body

theorem addAll (entries : List (String × Definition)) : Tells (Plugin.addAll entries) := by
  induction entries with
  | nil => exact .done ()
  | cons e entries inductionHypothesis =>
    exact .bind (.addFunction e.2.symbol? e.1 e.2.body) fun _ => inductionHypothesis

theorem run (source : String) : Tells (Routine.run source) := fun _ _ _ _ => text_of_run

theorem install (p : Plugin) : Tells p.install := by
  refine .bind (.addAll p.functions.entries) fun _ => ?_
  have announces : ∀ text, Tells (Routine.trace text) := fun text => .ask (.trace text)
  cases p.prelude? with
  | none => exact announces _
  | some source =>
    dsimp only
    split
    · exact .bind (.run source) fun _ => announces _
    · exact announces _

end Tells

/-- What fails where every failure is caught, fails for the plugin. -/
theorem failFor_fault {α : Type} {r : Routine α} {next : Except Fault α → Routine Unit}
    {error : String → LoadError} (tells : Tells r)
    (caught : ∀ inner, next (.error inner) = Source.failFor inner error)
    (goesOn : ∀ a m, ∃ m', perform fuel (next (.ok a)) m = .done () m')
    (failed : perform fuel (r.attempt >>= next) m = .failed fault m') :
    ∃ reason, fault = .plugin (error reason) := by
  rw [perform_attempt_bind] at failed
  cases ran : perform fuel r m with
  | done a middle =>
    obtain ⟨after, went⟩ := goesOn a middle
    rw [ran] at failed
    cases went.symm.trans failed
  | failed inner middle =>
    have fails : perform fuel (next (.error inner)) middle =
        .failed (.plugin (error inner.message)) middle := by
      rw [caught, Source.failFor, tells fuel m inner middle ran]
      rfl
    rw [ran] at failed
    cases fails.symm.trans failed
    exact ⟨_, rfl⟩
  | exhausted =>
    rw [ran] at failed
    cases failed

/-- Whatever fails in a plugin that was found is a failure of the plugin. -/
theorem install_fault {source : Source}
    (failed : perform fuel (source.install name) m = .failed fault m') :
    ∃ e : LoadError, fault = .plugin e ∧ e.plugin = name := by
  cases source with
  | script path text =>
    obtain ⟨reason, rfl⟩ := failFor_fault (.run text) (fun _ => rfl)
      (fun _ m => ⟨m.trace _, rfl⟩) failed
    exact ⟨_, rfl, rfl⟩
  | module p =>
    obtain ⟨reason, rfl⟩ := failFor_fault (.install p) (fun _ => rfl) (fun _ m => ⟨m, rfl⟩) failed
    exact ⟨_, rfl, rfl⟩

theorem load_fault (failed : perform fuel (load w name base) m = .failed fault m') :
    (∃ e : LoadError, fault = .plugin e ∧ e.plugin = name) ∨ Escapes w name base fault := by
  rw [perform_load] at failed
  cases fetched : fetch w name base with
  | ok source =>
    rw [fetched] at failed
    exact .inl (install_fault failed)
  | error fault =>
    rw [fetched] at failed
    cases failed
    exact fetch_fault fetched

/-- A plugin that does not load fails under its name, or with one of the failures that escape. Each
of these, once it is there, ends every attempt to load the plugin. -/
theorem load_fails_as_plugin_or_escapes (w : World) (name : String) (base : Path) (m : Machine) :
    (∀ fault m', Settles (perform · (load w name base)) m (.error fault) m' →
      (∃ e, fault = .plugin e ∧ ("\"" ++ name ++ "\"").toList <:+: fault.message.toList) ∨
        Escapes w name base fault) ∧
    ∀ fault, Escapes w name base fault → ∀ fuel,
      perform fuel (load w name base) m = .failed fault m := by
  constructor
  · rintro fault m' ⟨fuel, failed⟩
    rcases load_fault failed with ⟨e, rfl, rfl⟩ | escapes
    · exact .inl ⟨e, rfl, e.quoted_plugin_infix⟩
    · exact .inr escapes
  · intro fault escapes fuel
    rw [perform_load, fetch_of_escapes escapes]

theorem load_of_approve {files : FileTree} {path file : Path}
    (approved : (Module.approve files path).toOption = some file) :
    Module.load files path = Module.exportOf files file := by
  unfold Module.load
  cases found : Module.approve files path with
  | error e =>
    rw [found] at approved
    cases approved
  | ok file' =>
    rw [found] at approved
    cases approved
    rfl

/-- A record whose name cannot be taken. -/
def shy : Export := .record [("name", .error (.foreign "Error" "not now"))]

theorem refuses_shy : Refuses shy (.foreign "Error" "not now") := by
  have primary : shy.primary = .ok shy := by
    rw [Export.primary, shy, Export.member?_record]
    rfl
  have name : shy.get "name" = .error (.foreign "Error" "not now") := by
    rw [shy, Export.get_record]
    rfl
  exact .member primary (.parts rfl (by simp [name]))

/-- A directory in the place of a script, a script without permission, a script of no known words, a
module that throws a thing without a text, and one whose name cannot be taken. -/
def misplaced : World where
  files := ⟨[(⟨"", ["plugins", "folder.cairn"]⟩, .directory),
    (⟨"", ["plugins", "locked.cairn"]⟩, .closedFile),
    (⟨"", ["plugins", "broken.cairn"]⟩, .text "+"),
    (⟨"", ["plugins", "bare.js"]⟩,
      .module (.error (.mute "TypeError" "Cannot convert object to primitive value"))),
    (⟨"", ["plugins", "shy.js"]⟩, .module (.ok shy))]⟩
  directory := .root
  environment := {}

def pluginPath (file : String) : Path := ⟨"", ["plugins", file]⟩

theorem findsScript_misplaced :
    ∀ name ∈ ["folder", "locked", "broken"],
      FindsScript misplaced name .root (pluginPath (name ++ ".cairn")) := by
  unfold FindsScript
  decide +kernel

theorem findsModule_misplaced :
    ∀ name ∈ ["bare", "shy"], FindsModule misplaced name .root (pluginPath (name ++ ".js")) := by
  unfold FindsModule
  decide +kernel

theorem escapes_misplaced :
    Escapes misplaced "folder" .root (.file .isDirectory) ∧
    Escapes misplaced "locked" .root (.file (.denied "/plugins/locked.cairn")) ∧
    Escapes misplaced "bare" .root
      (.foreign "TypeError" "Cannot convert object to primitive value") ∧
    Escapes misplaced "shy" .root (.foreign "Error" "not now") := by
  have loads : ∀ name ∈ ["bare", "shy"],
      Module.load misplaced.files (pluginPath (name ++ ".js")) =
        Module.exportOf misplaced.files (pluginPath (name ++ ".js")) := by
    have approved : ∀ name ∈ ["bare", "shy"],
        (Module.approve misplaced.files (pluginPath (name ++ ".js"))).toOption =
          some (pluginPath (name ++ ".js")) := by decide +kernel
    exact fun name member => load_of_approve (approved name member)
  refine ⟨.script (findsScript_misplaced _ (by simp)) (.directory rfl),
    .script (findsScript_misplaced _ (by simp)) (.closedFile rfl),
    .mute (findsModule_misplaced _ (by simp)) ((loads _ (by simp)).trans rfl),
    .member (findsModule_misplaced _ (by simp)) ((loads _ (by simp)).trans rfl) refuses_shy⟩

theorem load_fails_as_plugin_or_escapes_misplaced :
    (∃ e, perform 1 (load misplaced "broken" .root) {} = .failed (.plugin e) {} ∧
      "\"broken\"".toList <:+: e.message.toList) ∧
    perform 1 (load misplaced "folder" .root) {} = .failed (.file .isDirectory) {} ∧
    perform 1 (load misplaced "locked" .root) {} =
      .failed (.file (.denied "/plugins/locked.cairn")) {} ∧
    perform 1 (load misplaced "bare" .root) {} =
      .failed (.foreign "TypeError" "Cannot convert object to primitive value") {} ∧
    perform 1 (load misplaced "shy" .root) {} = .failed (.foreign "Error" "not now") {} := by
  have fetched : fetch misplaced "broken" .root =
      .ok (.script (pluginPath "broken.cairn") "+") := by
    rw [fetch_script (findsScript_misplaced "broken" (by simp))]
    rfl
  have failed : ∃ e, perform 1 (load misplaced "broken" .root) {} = .failed (.plugin e) {} := by
    rw [perform_load, fetched]
    exact ⟨_, rfl⟩
  obtain ⟨e, failed⟩ := failed
  have named : "\"broken\"".toList <:+: e.message.toList := by
    rcases (load_fails_as_plugin_or_escapes misplaced "broken" .root {}).1 _ _ ⟨1, failed⟩ with
      ⟨_, same, named⟩ | escapes
    · cases same
      exact named
    · rw [fetch_of_escapes escapes] at fetched
      cases fetched
  obtain ⟨folder, locked, bare, shy⟩ := escapes_misplaced
  exact ⟨⟨e, failed, named⟩,
    (load_fails_as_plugin_or_escapes misplaced "folder" .root {}).2 _ folder 1,
    (load_fails_as_plugin_or_escapes misplaced "locked" .root {}).2 _ locked 1,
    (load_fails_as_plugin_or_escapes misplaced "bare" .root {}).2 _ bare 1,
    (load_fails_as_plugin_or_escapes misplaced "shy" .root {}).2 _ shy 1⟩

/-- The failure on a directory is not one of the plugin, and does not name it. -/
theorem load_fails_as_file :
    ∃ fault, perform 1 (load misplaced "folder" .root) {} = .failed fault {} ∧
      (∀ e, fault ≠ .plugin e) ∧ ¬ "folder".toList <:+: fault.message.toList := by
  refine ⟨.file .isDirectory, ?_, by simp, by decide +kernel⟩
  rw [perform_load, fetch_of_escapes escapes_misplaced.1]

end Plugin

end Cairn
