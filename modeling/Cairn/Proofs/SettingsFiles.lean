import Cairn.Proofs.Documents
import Cairn.Settings

set_option autoImplicit false

/-!
# Settings files

A settings file has four members that count. Each may be left out, and what is there has to be the
document of a value of its type. A file is accepted exactly when this holds of all four, and then
its settings are the values that are there; otherwise the complaint is about the first of them, in
order, that is not in order. The environment only turns two of the settings.
-/

namespace Cairn

namespace Mode

theorem ofName?_eq_some_iff {name : String} {mode : Mode} :
    ofName? name = some mode ↔ name = mode.name := by
  constructor
  · intro found
    have named := List.find?_some found
    simpa [eq_comm] using named
  · rintro rfl
    cases mode <;> rfl

end Mode

namespace Settings

section Reading

variable {α : Type} {path name expected : String} {j : Json} {convert : Json → Option α}
  {encode : α → Json}

/-- A member is read when it is absent or the document of a value. -/
theorem member?_eq_ok_iff (inverse : ∀ v a, convert v = some a ↔ v = encode a) {a? : Option α} :
    member? path j name expected convert = .ok a? ↔ j.get? name = a?.map encode := by
  unfold member?
  cases j.get? name with
  | none => cases a? <;> simp
  | some v =>
    cases converted : convert v with
    | none =>
      have other : ∀ a, v ≠ encode a := by
        intro a
        rw [ne_eq, ← inverse, converted]
        simp
      cases a? <;> simp [converted, other]
    | some a =>
      obtain rfl := (inverse v a).mp converted
      have same : ∀ b, encode a = encode b ↔ a = b := by
        intro b
        rw [← inverse, converted, Option.some.injEq]
      cases a? <;> simp [converted, same]

theorem eq_of_member?_eq_error {e : SettingsError}
    (failed : member? path j name expected convert = .error e) :
    e = .badMember name path expected := by
  unfold member? at failed
  split at failed
  · cases failed
  · split at failed <;> cases failed
    rfl

end Reading

/-- The members that count, in the order in which they are checked. -/
inductive Member where
  | output
  | trace
  | plugins
  | prompt
  deriving DecidableEq

namespace Member

def all : List Member := [.output, .trace, .plugins, .prompt]

def name : Member → String
  | .output => "output"
  | .trace => "trace"
  | .plugins => "plugins"
  | .prompt => "prompt"

/-- What a complaint asks for. -/
def expected : Member → String
  | .output => "one of human, simple, machine, quiet"
  | .trace => "a boolean"
  | .plugins => "an array of strings"
  | .prompt => "a string"

/-- The values of a member. -/
@[reducible] def Content : Member → Type
  | .output => Mode
  | .trace => Bool
  | .plugins => List String
  | .prompt => String

/-- The document of a value. -/
def encode : (f : Member) → f.Content → Json
  | .output, mode => .string mode.name
  | .trace, b => .boolean b
  | .plugins, names => .array (names.map .string)
  | .prompt, text => .string text

/-- A document does without a member, or has one of the right type. -/
def Fits (f : Member) (j : Json) : Prop :=
  ∀ v, j.get? f.name = some v → ∃ content, v = f.encode content

/-- The first of some members that has a wrong type. -/
inductive FirstUnfit (j : Json) : List Member → Member → Prop
  | here {f : Member} {later : List Member} (unfit : ¬ f.Fits j) : FirstUnfit j (f :: later) f
  | later {f g : Member} {later : List Member} (fits : g.Fits j) (first : FirstUnfit j later f) :
      FirstUnfit j (g :: later) f

/-- How the value of a member is got from a document. -/
def convert? : (f : Member) → Json → Option f.Content
  | .output => mode?
  | .trace => boolean?
  | .plugins => texts?
  | .prompt => text?

theorem texts?_eq_some_iff {v : Json} {names : List String} :
    texts? v = some names ↔ v = .array (names.map .string) := by
  have items : ∀ items : List Json, items.mapM text? = some names ↔ items = names.map .string := by
    intro items
    induction items generalizing names with
    | nil => cases names <;> simp
    | cons item items inductionHypothesis =>
      cases item with
      | string text =>
        cases names <;>
          simp [List.mapM_cons, text?, Option.bind_eq_some_iff, inductionHypothesis, and_comm]
      | _ => cases names <;> simp [List.mapM_cons, text?]
  cases v with
  | array list => simpa [texts?] using items list
  | _ => simp [texts?]

theorem convert?_eq_some_iff (f : Member) (v : Json) (content : f.Content) :
    f.convert? v = some content ↔ v = f.encode content := by
  cases f with
  | output =>
    cases v with
    | string name => simp [convert?, mode?, encode, Mode.ofName?_eq_some_iff]
    | _ => simp [convert?, mode?, encode]
  | trace => cases v <;> simp [convert?, boolean?, encode]
  | plugins => exact texts?_eq_some_iff
  | prompt => cases v <;> simp [convert?, text?, encode]

variable {path : String} {j : Json} {e : SettingsError}

/-- Reads a member of a document. -/
def read (f : Member) (path : String) (j : Json) : Except SettingsError (Option f.Content) :=
  member? path j f.name f.expected f.convert?

theorem read_eq_ok_iff (f : Member) {content? : Option f.Content} :
    f.read path j = .ok content? ↔ j.get? f.name = content?.map f.encode :=
  member?_eq_ok_iff f.convert?_eq_some_iff

theorem fits_iff (path : String) {f : Member} :
    f.Fits j ↔ ∃ content?, f.read path j = .ok content? := by
  simp only [read_eq_ok_iff]
  constructor
  · intro fits
    cases found : j.get? f.name with
    | none => exact ⟨none, rfl⟩
    | some v =>
      obtain ⟨content, rfl⟩ := fits v found
      exact ⟨some content, rfl⟩
  · rintro ⟨content?, found⟩ v present
    rw [found, Option.map_eq_some_iff] at present
    obtain ⟨content, -, rfl⟩ := present
    exact ⟨content, rfl⟩

theorem read_eq_error_iff (f : Member) :
    f.read path j = .error e ↔ ¬ f.Fits j ∧ e = .badMember f.name path f.expected := by
  rw [fits_iff path]
  cases ran : f.read path j with
  | ok content? => simp
  | error complaint =>
    have named : complaint = .badMember f.name path f.expected := eq_of_member?_eq_error ran
    simp [named, eq_comm]

/-- The complaint about the first of some members that has a wrong type. -/
def Rejects (path : String) (j : Json) (members : List Member) (e : SettingsError) : Prop :=
  ∃ f, FirstUnfit j members f ∧ e = .badMember f.name path f.expected

/-- A member is read in front of others: its complaint comes before theirs. -/
theorem read_bind_eq_error_iff {f : Member} {others : List Member}
    {later : Option f.Content → Except SettingsError Settings}
    (rest : ∀ content?, later content? = .error e ↔ Rejects path j others e) :
    (f.read path j >>= later) = .error e ↔ Rejects path j (f :: others) e := by
  cases ran : f.read path j with
  | error complaint =>
    obtain ⟨unfit, rfl⟩ := f.read_eq_error_iff.mp ran
    constructor
    · rintro ⟨⟩
      exact ⟨f, .here unfit, rfl⟩
    · rintro ⟨g, first, rfl⟩
      cases first with
      | here => rfl
      | later fits => exact absurd fits unfit
  | ok content? =>
    have fits : f.Fits j := (fits_iff path).mpr ⟨content?, ran⟩
    refine (rest content?).trans ⟨?_, ?_⟩
    · rintro ⟨g, first, rfl⟩
      exact ⟨g, .later fits first, rfl⟩
    · rintro ⟨g, first, rfl⟩
      cases first with
      | here unfit => exact absurd fits unfit
      | later _ first => exact ⟨g, first, rfl⟩

end Member

/-- The value of a member in settings. -/
def content? (s : Settings) : (f : Member) → Option f.Content
  | .output => s.output?
  | .trace => s.trace?
  | .plugins => s.plugins?
  | .prompt => s.prompt?

variable {path : String} {members : List (String × Json)} {s : Settings} {e : SettingsError}

theorem ofJson_object (path : String) (members : List (String × Json)) :
    ofJson path (.object members) = do
      let output? ← Member.output.read path (.object members)
      let trace? ← Member.trace.read path (.object members)
      let plugins? ← Member.plugins.read path (.object members)
      let prompt? ← Member.prompt.read path (.object members)
      return { output?, trace?, plugins?, prompt? } := rfl

theorem ofJson_eq_ok_iff :
    ofJson path (.object members) = .ok s ↔
      ∀ f : Member, (Json.object members).get? f.name = (s.content? f).map f.encode := by
  have bind_eq_ok : ∀ {α : Type} {x : Except SettingsError α}
      {later : α → Except SettingsError Settings},
      (x >>= later) = .ok s ↔ ∃ a, x = .ok a ∧ later a = .ok s := by
    intro α x later
    cases x <;> simp [bind, Except.bind]
  rw [ofJson_object]
  simp only [bind_eq_ok]
  constructor
  · rintro ⟨output?, output, trace?, trace, plugins?, plugins, prompt?, prompt, same⟩ f
    cases same
    cases f with
    | output => exact (Member.read_eq_ok_iff .output).mp output
    | trace => exact (Member.read_eq_ok_iff .trace).mp trace
    | plugins => exact (Member.read_eq_ok_iff .plugins).mp plugins
    | prompt => exact (Member.read_eq_ok_iff .prompt).mp prompt
  · intro values
    have reads : ∀ f : Member, f.read path (.object members) = .ok (s.content? f) :=
      fun f => f.read_eq_ok_iff.mpr (values f)
    exact ⟨s.output?, reads .output, s.trace?, reads .trace, s.plugins?, reads .plugins,
      s.prompt?, reads .prompt, rfl⟩

theorem ofJson_eq_error_iff :
    ofJson path (.object members) = .error e ↔
      Member.Rejects path (.object members) Member.all e := by
  rw [ofJson_object]
  refine Member.read_bind_eq_error_iff fun _ => Member.read_bind_eq_error_iff fun _ =>
    Member.read_bind_eq_error_iff fun _ => Member.read_bind_eq_error_iff fun _ => ?_
  constructor
  · rintro ⟨⟩
  · rintro ⟨f, first, -⟩
    cases first

/-! The document of settings. -/

theorem toJson_eq (s : Settings) :
    s.toJson = .object (Member.all.filterMap fun f => (s.content? f).map (f.name, f.encode ·)) := by
  rcases s with ⟨_ | _, _ | _, _ | _, _ | _⟩ <;> rfl

theorem get?_toJson (s : Settings) (f : Member) :
    s.toJson.get? f.name = (s.content? f).map f.encode := by
  rcases s with ⟨_ | _, _ | _, _ | _, _ | _⟩ <;> cases f <;> rfl

theorem writable_encode (f : Member) (content : f.Content) : (f.encode content).Writable := by
  cases f with
  | output => exact .string _
  | trace => exact .boolean _
  | plugins =>
    refine .array fun j member => ?_
    obtain ⟨name, -, rfl⟩ := List.mem_map.mp member
    exact .string name
  | prompt => exact .string _

theorem writable_toJson (s : Settings) : s.toJson.Writable := by
  rw [toJson_eq]
  refine .object fun e member => ?_
  obtain ⟨f, -, found⟩ := List.mem_filterMap.mp member
  obtain ⟨content, -, rfl⟩ := Option.map_eq_some_iff.mp found
  exact writable_encode f content

/-- Settings written as a document are read back. -/
theorem ofText_render_toJson (path : String) (s : Settings) :
    ofText path s.toJson.render = .ok s := by
  rw [ofText, Json.parse_render (writable_toJson s)]
  have object : s.toJson = .object _ := toJson_eq s
  rw [object]
  change ofJson path _ = _
  rw [ofJson_eq_ok_iff, ← object]
  exact get?_toJson s

/-- The document of a text is an object with all four members in order. -/
def WellTyped (text : String) : Prop :=
  ∃ members, Json.parse? text = some (.object members) ∧ ∀ f : Member, f.Fits (.object members)

/-- What is wrong with a text from a path: it is no document, its document is no object, or one of
the four members is the first that has a wrong type. -/
inductive Refused (path text : String) : SettingsError → Prop
  | notJson {e : Json.ParseError} (unreadable : Json.parse text = .error e) :
      Refused path text (.notJson path (e.message text))
  | notObject {j : Json} (parsed : Json.parse? text = some j)
      (other : ∀ members, j ≠ .object members) : Refused path text (.notObject path)
  | badMember {members : List (String × Json)} {f : Member}
      (parsed : Json.parse? text = some (.object members))
      (first : Member.FirstUnfit (.object members) Member.all f) :
      Refused path text (.badMember f.name path f.expected)

/-- Settings have the values that a text has for the four members, and no others. -/
def Reflects (s : Settings) (text : String) : Prop :=
  ∃ members, Json.parse? text = some (.object members) ∧
    ∀ f : Member, (Json.object members).get? f.name = (s.content? f).map f.encode

variable {text : String}

theorem ofText_eq_ok_iff : ofText path text = .ok s ↔ s.Reflects text := by
  simp only [Reflects, Json.parse?_eq_some_iff]
  unfold ofText
  cases Json.parse text with
  | error e => simp
  | ok j =>
    cases j with
    | object members => simp [ofJson_eq_ok_iff]
    | _ => simp [ofJson]

theorem ofJson_of_not_object {j : Json} (other : ∀ members, j ≠ .object members) :
    ofJson path j = .error (.notObject path) := by
  cases j with
  | object members => exact absurd rfl (other members)
  | _ => rfl

theorem ofText_eq_error_iff : ofText path text = .error e ↔ Refused path text e := by
  unfold ofText
  constructor
  · intro failed
    cases parsed : Json.parse text with
    | error problem =>
      rw [parsed] at failed
      cases failed
      exact .notJson parsed
    | ok j =>
      rw [parsed] at failed
      have parsed := Json.parse?_eq_some_iff.mpr parsed
      by_cases isObject : ∃ members, j = .object members
      · obtain ⟨members, rfl⟩ := isObject
        obtain ⟨f, first, rfl⟩ := ofJson_eq_error_iff.mp failed
        exact .badMember parsed first
      · have other : ∀ members, j ≠ .object members := fun members same => isObject ⟨members, same⟩
        cases (ofJson_of_not_object other).symm.trans failed
        exact .notObject parsed other
  · intro refused
    cases refused with
    | notJson unreadable => rw [unreadable]
    | notObject parsed other =>
      rw [Json.parse?_eq_some_iff.mp parsed]
      exact ofJson_of_not_object other
    | @badMember members f parsed first =>
      rw [Json.parse?_eq_some_iff.mp parsed]
      exact ofJson_eq_error_iff.mpr ⟨f, first, rfl⟩

theorem wellTyped_iff : WellTyped text ↔ ∃ s : Settings, s.Reflects text := by
  constructor
  · rintro ⟨members, parsed, fits⟩
    have read : ∀ f : Member, ∃ content? : Option f.Content,
        (Json.object members).get? f.name = content?.map f.encode := by
      intro f
      obtain ⟨content?, read⟩ := (Member.fits_iff "").mp (fits f)
      exact ⟨content?, (f.read_eq_ok_iff).mp read⟩
    choose value values using read
    refine ⟨⟨value .output, value .trace, value .plugins, value .prompt⟩, members, parsed, ?_⟩
    intro f
    cases f with
    | output => exact values .output
    | trace => exact values .trace
    | plugins => exact values .plugins
    | prompt => exact values .prompt
  · rintro ⟨s, members, parsed, values⟩
    exact ⟨members, parsed, fun f => (Member.fits_iff "").mpr
      ⟨_, f.read_eq_ok_iff.mpr (values f)⟩⟩

variable {w : World} {given : String}

theorem load_given (named : given ≠ "")
    (content : w.files.read (w.directory.resolve given) = .ok text) :
    load w (some given) = (ofText (w.directory.resolve given).toString text).map
      (·, (w.directory.resolve given).parent) := by
  unfold load
  rw [Option.filter_some, if_pos (by simpa using named)]
  simp only [readFile, content]
  cases ofText (w.directory.resolve given).toString text <;> rfl

/-! The environment. -/

/-- The environment names an output that is no mode. -/
def BadOutput (env : Environment) (value : String) : Prop :=
  env.output? = some value ∧ value ≠ "" ∧ ∀ mode : Mode, mode.name ≠ value

/-- What the environment makes of settings: the mode that it names, if it names any, and tracing if
it asks for that. All else stays. -/
structure Overlaid (env : Environment) (s s' : Settings) : Prop where
  named : ∀ value, env.output? = some value → value ≠ "" →
    ∃ mode : Mode, mode.name = value ∧ s'.output? = some mode
  unnamed : env.output?.getD "" = "" → s'.output? = s.output?
  traced : env.trace? = some "1" → s'.trace? = some true
  untraced : env.trace? ≠ some "1" → s'.trace? = s.trace?
  plugins : s'.plugins? = s.plugins?
  prompt : s'.prompt? = s.prompt?

variable {env : Environment} {s' : Settings} {value : String}

theorem Overlaid.not_badOutput (overlaid : Overlaid env s s') : ¬ BadOutput env value := by
  rintro ⟨given, nonempty, other⟩
  obtain ⟨mode, same, -⟩ := overlaid.named value given nonempty
  exact other mode same

theorem Overlaid.unique {s'' : Settings} (first : Overlaid env s s')
    (second : Overlaid env s s'') : s' = s'' := by
  have output : s'.output? = s''.output? := by
    by_cases empty : env.output?.getD "" = ""
    · rw [first.unnamed empty, second.unnamed empty]
    · obtain ⟨value, given⟩ : ∃ value, env.output? = some value := by
        cases given : env.output? with
        | none => simp [given] at empty
        | some value => exact ⟨value, rfl⟩
      rw [given] at empty
      obtain ⟨mode, rfl, set⟩ := first.named value given empty
      obtain ⟨mode', same, set'⟩ := second.named mode.name given empty
      have equal := (Mode.ofName?_eq_some_iff.mpr same.symm).symm.trans
        (Mode.ofName?_eq_some_iff.mpr rfl)
      rw [set, set', Option.some.inj equal]
  have trace : s'.trace? = s''.trace? := by
    by_cases traced : env.trace? = some "1"
    · rw [first.traced traced, second.traced traced]
    · rw [first.untraced traced, second.untraced traced]
  have plugins := first.plugins.trans second.plugins.symm
  have prompt := first.prompt.trans second.prompt.symm
  cases s'
  cases s''
  rw [mk.injEq]
  exact ⟨output, trace, plugins, prompt⟩

/-- Settings that the environment was laid over are left alone by it. -/
theorem Overlaid.again (overlaid : Overlaid env s s') : Overlaid env s' s' where
  named := overlaid.named
  unnamed _ := rfl
  traced := overlaid.traced
  untraced _ := rfl
  plugins := rfl
  prompt := rfl

/-- Settings with a given output and with the tracing that the environment asks for. -/
def turned (env : Environment) (s : Settings) (output? : Option Mode) : Settings :=
  { s with output?, trace? := if env.trace? = some "1" then some true else s.trace? }

theorem overlaid_turned {output? : Option Mode}
    (named : ∀ value, env.output? = some value → value ≠ "" →
      ∃ mode : Mode, mode.name = value ∧ output? = some mode)
    (unnamed : env.output?.getD "" = "" → output? = s.output?) :
    Overlaid env s (turned env s output?) where
  named := named
  unnamed := unnamed
  traced asked := if_pos asked
  untraced other := if_neg other
  plugins := rfl
  prompt := rfl

/-- The environment leaves the output alone, names a mode or names something else. -/
theorem overlay_cases (env : Environment) (s : Settings) :
    (∃ s', overlay env s = .ok s' ∧ Overlaid env s s') ∨
      ∃ value, overlay env s = .error (.badVariable value) ∧ BadOutput env value := by
  cases given : env.output?.filter (· ≠ "") with
  | none =>
    refine .inl ⟨turned env s s.output?, by simp only [overlay, given]; rfl, ?_⟩
    refine overlaid_turned (fun value found nonempty => ?_) fun _ => rfl
    rw [found, Option.filter_some, if_pos (by simpa using nonempty)] at given
    cases given
  | some value =>
    obtain ⟨found, nonempty⟩ := Option.filter_eq_some_iff.mp given
    replace nonempty : value ≠ "" := by simpa using nonempty
    cases known : Mode.ofName? value with
    | none =>
      refine .inr ⟨value, by simp only [overlay, given, known]; rfl, found, nonempty, ?_⟩
      rintro mode rfl
      rw [Mode.ofName?_eq_some_iff.mpr rfl] at known
      cases known
    | some mode =>
      have same := Mode.ofName?_eq_some_iff.mp known
      refine .inl ⟨turned env s (some mode), by simp only [overlay, given, known]; rfl, ?_⟩
      refine overlaid_turned (fun value' found' _ => ?_) fun empty => ?_
      · cases found.symm.trans found'
        exact ⟨mode, same.symm, rfl⟩
      · rw [found] at empty
        exact absurd empty nonempty

theorem overlay_eq_ok_iff : overlay env s = .ok s' ↔ Overlaid env s s' := by
  rcases overlay_cases env s with ⟨s'', ran, overlaid⟩ | ⟨value, ran, bad⟩
  · rw [ran, Except.ok.injEq]
    constructor
    · rintro rfl
      exact overlaid
    · exact overlaid.unique
  · rw [ran]
    constructor
    · rintro ⟨⟩
    · exact fun overlaid => absurd bad overlaid.not_badOutput

theorem overlay_eq_error_iff :
    overlay env s = .error e ↔ ∃ value, BadOutput env value ∧ e = .badVariable value := by
  rcases overlay_cases env s with ⟨s', ran, overlaid⟩ | ⟨value, ran, bad⟩
  · rw [ran]
    constructor
    · rintro ⟨⟩
    · rintro ⟨value, bad, -⟩
      exact absurd bad overlaid.not_badOutput
  · rw [ran, Except.error.injEq]
    constructor
    · rintro rfl
      exact ⟨value, bad, rfl⟩
    · rintro ⟨value', bad', rfl⟩
      rw [Option.some.inj (bad.1.symm.trans bad'.1)]

/-- The environment laid over settings twice. -/
theorem overlay_bind_overlay (env : Environment) (s : Settings) :
    (overlay env s >>= overlay env) = overlay env s := by
  rcases overlay_cases env s with ⟨s', ran, overlaid⟩ | ⟨value, ran, -⟩
  · rw [ran]
    exact overlay_eq_ok_iff.mpr overlaid.again
  · rw [ran]
    rfl

/-- A settings file is loaded exactly when all of its four members are absent or well typed, with
the values that are there. The environment changes only the output and the tracing, and only
once. -/
theorem settings_files_are_well_typed {w : World} {given text : String} (named : given ≠ "")
    (content : w.files.read (w.directory.resolve given) = .ok text) :
    ((∃ s base, load w (some given) = .ok (s, base)) ↔ WellTyped text) ∧
    (∀ s base, load w (some given) = .ok (s, base) ↔
      s.Reflects text ∧ base = (w.directory.resolve given).parent) ∧
    (∀ e, load w (some given) = .error e ↔
      Refused (w.directory.resolve given).toString text e) ∧
    (∀ s base, load w (some given) = .ok (s, base) → ∀ (w' : World) (given' : String),
      given' ≠ "" → w'.files.read (w'.directory.resolve given') = .ok s.toJson.render →
      load w' (some given') = .ok (s, (w'.directory.resolve given').parent)) ∧
    ∀ (env : Environment) (s : Settings),
      (∀ e, overlay env s = .error e ↔ ∃ value, BadOutput env value ∧ e = .badVariable value) ∧
      (∀ s', overlay env s = .ok s' ↔ Overlaid env s s') ∧
      (overlay env s >>= overlay env) = overlay env s := by
  have loaded : ∀ s base, load w (some given) = .ok (s, base) ↔
      s.Reflects text ∧ base = (w.directory.resolve given).parent := by
    intro s base
    rw [load_given named content, ← ofText_eq_ok_iff]
    cases ofText (w.directory.resolve given).toString text <;> simp [Except.map, eq_comm]
  refine ⟨?_, loaded, fun e => ?_, fun s base _ w' given' named' content' => ?_,
    fun env s => ⟨fun e => overlay_eq_error_iff, fun s' => overlay_eq_ok_iff,
      overlay_bind_overlay env s⟩⟩
  · simp only [loaded, wellTyped_iff, exists_eq_right]
  · rw [load_given named content, ← ofText_eq_error_iff]
    cases ofText (w.directory.resolve given).toString text <;> simp [Except.map]
  · rw [load_given named' content', ofText_render_toJson]
    rfl

/-- A member that does not count, and one that is given twice. -/
def quiet : List (String × Json) :=
  [("theme", .array []), ("trace", .string "1"), ("output", .string "quiet"),
    ("trace", .boolean false)]

/-- Two members of a wrong type. -/
def wrong : List (String × Json) := [("plugins", .array [.null]), ("trace", .string "1")]

def household : World where
  files := ⟨[
    (⟨"", ["a.json"]⟩, .text (Json.object quiet).render),
    (⟨"", ["b.json"]⟩, .text (Json.object wrong).render)]⟩
  directory := .root
  environment := {}

theorem parse_quiet : Json.parse? (Json.object quiet).render = some (.object quiet) := by
  have writable : (Json.object quiet).Writable := by
    refine .object fun e member => ?_
    simp only [quiet, List.mem_cons, List.not_mem_nil, or_false] at member
    rcases member with rfl | rfl | rfl | rfl
    · exact .array (by simp)
    all_goals constructor
  exact Json.parse?_eq_some_iff.mpr (Json.parse_render writable)

theorem parse_wrong : Json.parse? (Json.object wrong).render = some (.object wrong) := by
  have writable : (Json.object wrong).Writable := by
    refine .object fun e member => ?_
    simp only [wrong, List.mem_cons, List.not_mem_nil, or_false] at member
    rcases member with rfl | rfl
    · exact .array (by simp [Json.Writable.null])
    · constructor
  exact Json.parse?_eq_some_iff.mpr (Json.parse_render writable)

/-- The last of two members counts, and the complaint is about the member that is checked first. -/
theorem settings_files_are_well_typed_household :
    load household (some "a.json") = .ok (⟨some .quiet, some false, none, none⟩, .root) ∧
    load household (some "b.json") = .error (.badMember "trace" "/b.json" "a boolean") ∧
    overlay ⟨some "simple", some "1", none⟩ ⟨some .quiet, some false, none, none⟩ =
      .ok ⟨some .simple, some true, none, none⟩ := by
  have contentA : household.files.read (household.directory.resolve "a.json") =
      .ok (Json.object quiet).render := by decide +kernel
  have contentB : household.files.read (household.directory.resolve "b.json") =
      .ok (Json.object wrong).render := by decide +kernel
  obtain ⟨-, loads, -, -, environment⟩ := settings_files_are_well_typed (by decide) contentA
  obtain ⟨-, -, refuses, -⟩ := settings_files_are_well_typed (by decide) contentB
  have values : Reflects ⟨some .quiet, some false, none, none⟩ (Json.object quiet).render :=
    ⟨quiet, parse_quiet, fun f => by cases f <;> rfl⟩
  refine ⟨(loads _ _).mpr ⟨values, by decide +kernel⟩, ?_, ?_⟩
  · have output : Member.output.Fits (.object wrong) := by
      rintro v ⟨⟩
    have trace : ¬ Member.trace.Fits (.object wrong) := by
      intro fits
      obtain ⟨b, same⟩ := fits (.string "1") rfl
      cases same
    have path : (household.directory.resolve "b.json").toString = "/b.json" := by decide +kernel
    rw [refuses, path]
    exact .badMember parse_wrong (.later output (.here trace))
  · refine ((environment _ _).2.1 _).mpr ?_
    constructor
    · rintro value ⟨⟩ -
      exact ⟨.simple, rfl, rfl⟩
    · simp
    · simp
    · simp
    · rfl
    · rfl

end Settings

end Cairn
