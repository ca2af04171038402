import Cairn.Plugin.Export

set_option autoImplicit false

/-!
# Shapes of plugins

Which trees are plugins. Members are taken in a fixed order, so the check of a tree comes to one of
three ends: the tree is a plugin, or it is none, or the first member that cannot be taken ends the
check with its own failure.
-/

namespace Cairn.Export

variable {x : Export} {fault : Fault} {d : Definition} {name : String}
  {members : List (String × Except Fault Export)} {values : List (String × Export)}
  {entries : List (String × Definition)}

/-- The first of the members that cannot be taken fails like this. -/
inductive FirstRaises (fault : Fault) : List (Except Fault Export) → Prop where
  | here (rest : List (Except Fault Export)) : FirstRaises fault (.error fault :: rest)
  | later (x : Export) {rest : List (Except Fault Export)} (raises : FirstRaises fault rest) :
      FirstRaises fault (.ok x :: rest)

@[simp] theorem not_firstRaises_nil : ¬ FirstRaises fault [] := nofun

@[simp] theorem firstRaises_ok {rest : List (Except Fault Export)} :
    FirstRaises fault (.ok x :: rest) ↔ FirstRaises fault rest := by
  constructor
  · rintro ⟨⟩
    assumption
  · exact .later x

@[simp] theorem firstRaises_error {rest : List (Except Fault Export)} {first : Fault} :
    FirstRaises fault (.error first :: rest) ↔ fault = first := by
  constructor
  · rintro ⟨⟩
    rfl
  · rintro rfl
    exact .here rest

theorem raises_or_taken (takings : List (Except Fault Export)) :
    (∃ fault, FirstRaises fault takings) ∨ ∃ values : List Export, takings = values.map .ok := by
  induction takings with
  | nil => exact .inr ⟨[], rfl⟩
  | cons taking rest inductionHypothesis =>
    cases taking with
    | error fault => exact .inl ⟨fault, .here rest⟩
    | ok x =>
      rcases inductionHypothesis with ⟨fault, raises⟩ | ⟨values, rfl⟩
      · exact .inl ⟨fault, .later x raises⟩
      · exact .inr ⟨x :: values, rfl⟩

/-- A function entry: a record with a routine, and with a string for an alias if there is one. -/
structure IsFunction (x : Export) : Prop where
  isRecord : x.isRecord = true
  body : ∃ body members, x.get "fn" = .ok (.routine body members)
  symbol : x.get "alias" = .ok .undefined ∨ ∃ symbol, x.get "alias" = .ok (.string symbol)
  description : ∃ given, x.get "description" = .ok given

/-- The check of a function entry fails: at its routine or its alias, or else, if these are good
ones, at its description. -/
inductive EntryRaises (x : Export) (fault : Fault) : Prop where
  | parts (isRecord : x.isRecord = true) (raises : FirstRaises fault [x.get "fn", x.get "alias"])
  | description {body : Routine Unit} {members : List (String × Except Fault Export)}
      {given : Export} (isRecord : x.isRecord = true)
      (holds : x.get "fn" = .ok (.routine body members)) (symbol : x.get "alias" = .ok given)
      (fits : given.symbol?.isSome = true) (raises : x.get "description" = .error fault)

/-- The alias that an entry is given. -/
def alias? (x : Export) : Option String := (x.get "alias").toOption.bind text?

theorem symbol?_eq_some_iff {symbol? : Option String} :
    x.symbol? = some symbol? ↔
      (x = .undefined ∧ symbol? = none) ∨ ∃ symbol, x = .string symbol ∧ symbol? = some symbol := by
  cases x <;> simp [Export.symbol?, eq_comm]

section Bind

variable {α β : Type 1} {part : Except Fault α} {next : α → Except Fault β}

theorem bind_eq_ok {b : β} : part >>= next = .ok b ↔ ∃ a, part = .ok a ∧ next a = .ok b := by
  cases part <;> simp [bind, Except.bind]

theorem bind_eq_error :
    part >>= next = .error fault ↔
      part = .error fault ∨ ∃ a, part = .ok a ∧ next a = .error fault := by
  cases part <;> simp [bind, Except.bind]

theorem FirstRaises.bind {rest : List (Except Fault Export)} {taking : Except Fault Export}
    {next : Export → Except Fault β} (raises : FirstRaises fault (taking :: rest))
    (later : ∀ a, FirstRaises fault rest → next a = .error fault) :
    taking >>= next = .error fault := by
  cases raises with
  | here => rfl
  | later x raises => exact later x raises

end Bind

/-! Entries. -/

theorem definition?_of_not_isRecord (plain : ¬ x.isRecord = true) : x.definition? = .ok none :=
  if_neg plain

theorem definition?_of_isRecord (isRecord : x.isRecord = true) :
    x.definition? = do
      let body ← x.get "fn"
      let symbol ← x.get "alias"
      match body, symbol.symbol? with
      | .routine body _, some symbol? =>
        let description ← x.get "description"
        return some ⟨symbol?, description.text?, body⟩
      | _, _ => return none := if_pos isRecord

theorem definition?_eq_error_iff : x.definition? = .error fault ↔ x.EntryRaises fault := by
  constructor
  · intro failed
    by_cases isRecord : x.isRecord = true
    · rw [definition?_of_isRecord isRecord] at failed
      rcases bind_eq_error.mp failed with raised | ⟨body, holds, checked⟩
      · exact .parts isRecord (by simp [raised])
      rcases bind_eq_error.mp checked with raised | ⟨given, symbol, judged⟩
      · exact .parts isRecord (by simp [holds, raised])
      split at judged
      next fits =>
        rcases bind_eq_error.mp judged with raised | ⟨_, _, passed⟩
        · exact .description isRecord holds symbol (by simp [fits]) raised
        · cases passed
      next => cases judged
    · cases (definition?_of_not_isRecord isRecord).symm.trans failed
  · rintro (⟨isRecord, raises⟩ | ⟨isRecord, holds, symbol, fits, raises⟩)
    · rw [definition?_of_isRecord isRecord]
      exact raises.bind fun _ raises => raises.bind fun _ raises => nomatch raises
    · obtain ⟨symbol?, fits⟩ := Option.isSome_iff_exists.mp fits
      rw [definition?_of_isRecord isRecord, holds, symbol, raises]
      simp only [bind, Except.bind, fits]

theorem definition?_eq_some (accepted : x.definition? = .ok (some d)) :
    x.IsFunction ∧ (∃ members, x.get "fn" = .ok (.routine d.body members)) ∧
      x.alias? = d.symbol? := by
  by_cases isRecord : x.isRecord = true
  · rw [definition?_of_isRecord isRecord] at accepted
    obtain ⟨body, holds, taken⟩ := bind_eq_ok.mp accepted
    obtain ⟨given, symbol, judged⟩ := bind_eq_ok.mp taken
    split at judged
    next body members symbol? fits =>
      obtain ⟨description, described, same⟩ := bind_eq_ok.mp judged
      cases same
      rcases symbol?_eq_some_iff.mp fits with ⟨rfl, rfl⟩ | ⟨text, rfl, rfl⟩
      · exact ⟨⟨isRecord, ⟨body, members, holds⟩, .inl symbol, description, described⟩,
          ⟨members, holds⟩, by simp [alias?, symbol, Except.toOption, text?]⟩
      · exact ⟨⟨isRecord, ⟨body, members, holds⟩, .inr ⟨text, symbol⟩, description, described⟩,
          ⟨members, holds⟩, by simp [alias?, symbol, Except.toOption, text?]⟩
    next => cases judged
  · cases (definition?_of_not_isRecord isRecord).symm.trans accepted

theorem IsFunction.exists_definition? (isFunction : x.IsFunction) :
    ∃ d, x.definition? = .ok (some d) := by
  obtain ⟨isRecord, ⟨body, members, holds⟩, symbol, description, described⟩ := isFunction
  rw [definition?_of_isRecord isRecord, holds, described]
  rcases symbol with symbol | ⟨text, symbol⟩
  · rw [symbol]
    exact ⟨_, rfl⟩
  · rw [symbol]
    exact ⟨_, rfl⟩

/-! Members of a table. -/

theorem takeAll_eq_error_iff :
    takeAll members = .error fault ↔ FirstRaises fault (members.map (·.2)) := by
  induction members with
  | nil => simp [takeAll, pure, Except.pure]
  | cons e members inductionHypothesis =>
    obtain ⟨name, taking⟩ := e
    rw [takeAll, List.map_cons, bind_eq_error]
    cases taking with
    | error first => simp [eq_comm]
    | ok x =>
      simp only [firstRaises_ok, ← inductionHypothesis, bind_eq_error]
      simp [pure, Except.pure]

theorem takeAll_eq_ok_iff :
    takeAll members = .ok values ↔ members = values.map fun e => (e.1, .ok e.2) := by
  induction members generalizing values with
  | nil => cases values <;> simp [takeAll, pure, Except.pure]
  | cons e members inductionHypothesis =>
    obtain ⟨name, taking⟩ := e
    simp only [takeAll, bind_eq_ok, inductionHypothesis]
    constructor
    · rintro ⟨x, rfl, rest, rfl, same⟩
      cases same
      rfl
    · intro same
      cases values with
      | nil => cases same
      | cons value values =>
        obtain ⟨first, rest⟩ := List.cons.inj same
        cases first
        exact ⟨value.2, rfl, values, rest, rfl⟩

/-- The first entries are functions, and then the check of one fails. -/
inductive TableRaises (fault : Fault) : List (String × Export) → Prop where
  | here {e : String × Export} (raises : e.2.EntryRaises fault) (rest : List (String × Export)) :
      TableRaises fault (e :: rest)
  | later {e : String × Export} {rest : List (String × Export)} (isFunction : e.2.IsFunction)
      (raises : TableRaises fault rest) : TableRaises fault (e :: rest)

theorem definitions?_eq_error_iff :
    definitions? values = .error fault ↔ TableRaises fault values := by
  induction values with
  | nil => exact ⟨nofun, nofun⟩
  | cons e values inductionHypothesis =>
    rw [definitions?, bind_eq_error, definition?_eq_error_iff]
    constructor
    · rintro (raises | ⟨given, first, failed⟩)
      · exact .here raises values
      · cases given with
        | none => cases failed
        | some d =>
          rcases bind_eq_error.mp failed with raised | ⟨_, _, passed⟩
          · exact .later (definition?_eq_some first).1 (inductionHypothesis.mp raised)
          · cases passed
    · intro raises
      cases raises with
      | here raises => exact .inl raises
      | later isFunction raises =>
        obtain ⟨d, first⟩ := isFunction.exists_definition?
        exact .inr ⟨_, first, bind_eq_error.mpr (.inl (inductionHypothesis.mpr raises))⟩

theorem definitions?_cons {e : String × Export} :
    definitions? (e :: values) = .ok (some entries) ↔
      ∃ d rest, e.2.definition? = .ok (some d) ∧ definitions? values = .ok (some rest) ∧
        entries = (e.1, d) :: rest := by
  rw [definitions?, bind_eq_ok]
  constructor
  · rintro ⟨given, first, accepted⟩
    cases given with
    | none => cases accepted
    | some d =>
      obtain ⟨rest, others, same⟩ := bind_eq_ok.mp accepted
      cases rest with
      | none => cases same
      | some rest =>
        cases same
        exact ⟨d, rest, first, others, rfl⟩
  · rintro ⟨d, rest, first, others, rfl⟩
    exact ⟨some d, first, bind_eq_ok.mpr ⟨some rest, others, rfl⟩⟩

theorem exists_definitions?_iff :
    (∃ entries, definitions? values = .ok (some entries)) ↔ ∀ e ∈ values, e.2.IsFunction := by
  induction values with
  | nil => simp [definitions?, pure, Except.pure]
  | cons e values inductionHypothesis =>
    rw [List.forall_mem_cons, ← inductionHypothesis]
    constructor
    · rintro ⟨entries, accepted⟩
      obtain ⟨d, rest, first, others, -⟩ := definitions?_cons.mp accepted
      exact ⟨(definition?_eq_some first).1, rest, others⟩
    · rintro ⟨isFunction, rest, others⟩
      obtain ⟨d, first⟩ := isFunction.exists_definition?
      exact ⟨_, definitions?_cons.mpr ⟨d, rest, first, others, rfl⟩⟩

/-! Whole trees. -/

/-- A table under `functions`, with what is taken from it. -/
def HasFunctions (x : Export) (values : List (String × Export)) : Prop :=
  ∃ table, x.get "functions" = .ok table ∧
    table.members? = some (values.map fun e => (e.1, .ok e.2))

/-- A plugin: a record with a name and a table of function entries. -/
structure IsPlugin (x : Export) : Prop where
  isRecord : x.isRecord = true
  name : ∃ text, x.get "name" = .ok (.string text)
  description : ∃ given, x.get "description" = .ok given
  functions : ∃ values, x.HasFunctions values ∧ ∀ e ∈ values, e.2.IsFunction
  source : ∃ given, x.get "prelude" = .ok given

/-- The check of a tree fails: at a member of its own, or at a member of its table, or inside one of
those. -/
inductive Raises (x : Export) (fault : Fault) : Prop where
  | parts (isRecord : x.isRecord = true)
      (raises : FirstRaises fault
        [x.get "name", x.get "description", x.get "functions", x.get "prelude"])
  | members {text : String} {given table source : Export}
      {members : List (String × Except Fault Export)} (isRecord : x.isRecord = true)
      (name : x.get "name" = .ok (.string text)) (description : x.get "description" = .ok given)
      (functions : x.get "functions" = .ok table) (has : table.members? = some members)
      (prelude : x.get "prelude" = .ok source) (raises : FirstRaises fault (members.map (·.2)))
  | entries {text : String} {given source : Export} {values : List (String × Export)}
      (isRecord : x.isRecord = true) (name : x.get "name" = .ok (.string text))
      (description : x.get "description" = .ok given) (functions : x.HasFunctions values)
      (prelude : x.get "prelude" = .ok source) (raises : TableRaises fault values)

theorem plugin?_of_not_isRecord (plain : ¬ x.isRecord = true) : x.plugin? = .ok none :=
  if_neg plain

theorem plugin?_of_firstRaises (isRecord : x.isRecord = true)
    (raises : FirstRaises fault
      [x.get "name", x.get "description", x.get "functions", x.get "prelude"]) :
    x.plugin? = .error fault := by
  rw [plugin?, if_pos isRecord]
  exact raises.bind fun _ raises => raises.bind fun _ raises => raises.bind fun _ raises =>
    raises.bind fun _ raises => nomatch raises

/-- Once the members of a tree are taken, the check is one of the members of its table. -/
theorem plugin?_of_parts {text : String} {given table source : Export}
    (isRecord : x.isRecord = true) (name : x.get "name" = .ok (.string text))
    (description : x.get "description" = .ok given) (functions : x.get "functions" = .ok table)
    (has : table.members? = some members) (prelude : x.get "prelude" = .ok source) :
    x.plugin? = do
      let functions ← definitions? (← takeAll members)
      return functions.map fun functions => {
        name := text
        description? := given.text?
        functions := Plugin.tableOf functions
        prelude? := source.text? } := by
  rw [plugin?, if_pos isRecord, name, description, functions, prelude]
  simp only [bind, Except.bind, has]

theorem plugin?_of_misfit {called given table source : Export} (isRecord : x.isRecord = true)
    (name : x.get "name" = .ok called) (description : x.get "description" = .ok given)
    (functions : x.get "functions" = .ok table) (prelude : x.get "prelude" = .ok source)
    (misfit : ∀ text members, called = .string text → table.members? ≠ some members) :
    x.plugin? = .ok none := by
  rw [plugin?, if_pos isRecord, name, description, functions, prelude]
  dsimp only [bind, Except.bind]
  split
  next text members has => exact absurd has (misfit text members rfl)
  next => rfl

/-- The check of a record ends at a member that cannot be taken, or rejects those that are taken, or
goes on to the members of its table. -/
theorem plugin?_cases (isRecord : x.isRecord = true) :
    (∃ fault, FirstRaises fault
        [x.get "name", x.get "description", x.get "functions", x.get "prelude"] ∧
      x.plugin? = .error fault) ∨
    x.plugin? = .ok none ∨
    ∃ text given table members source, x.get "name" = .ok (.string text) ∧
      x.get "description" = .ok given ∧ x.get "functions" = .ok table ∧
      table.members? = some members ∧ x.get "prelude" = .ok source := by
  rcases raises_or_taken
      [x.get "name", x.get "description", x.get "functions", x.get "prelude"] with
    ⟨fault, raises⟩ | ⟨values, taken⟩
  · exact .inl ⟨fault, raises, plugin?_of_firstRaises isRecord raises⟩
  · obtain ⟨called, _, rfl, name, taken⟩ := List.map_eq_cons_iff.mp taken.symm
    obtain ⟨given, _, rfl, description, taken⟩ := List.map_eq_cons_iff.mp taken
    obtain ⟨table, _, rfl, functions, taken⟩ := List.map_eq_cons_iff.mp taken
    obtain ⟨source, _, rfl, prelude, -⟩ := List.map_eq_cons_iff.mp taken
    by_cases fits : ∃ text members, called = .string text ∧ table.members? = some members
    · obtain ⟨text, members, rfl, has⟩ := fits
      exact .inr (.inr ⟨text, given, table, members, source, name.symm, description.symm,
        functions.symm, has, prelude.symm⟩)
    · exact .inr (.inl (plugin?_of_misfit isRecord name.symm description.symm functions.symm
        prelude.symm fun text members same has => fits ⟨text, members, same, has⟩))

theorem plugin?_eq_error_iff : x.plugin? = .error fault ↔ x.Raises fault := by
  constructor
  · intro failed
    by_cases isRecord : x.isRecord = true
    · rcases plugin?_cases isRecord with ⟨first, raises, ended⟩ | ended |
        ⟨text, given, table, members, source, name, description, functions, has, prelude⟩
      · cases ended.symm.trans failed
        exact .parts isRecord raises
      · cases ended.symm.trans failed
      rw [plugin?_of_parts isRecord name description functions has prelude] at failed
      rcases bind_eq_error.mp failed with raised | ⟨values, taken, defined⟩
      · exact .members isRecord name description functions has prelude
          (takeAll_eq_error_iff.mp raised)
      rcases bind_eq_error.mp defined with raised | ⟨_, _, passed⟩
      · have entries := takeAll_eq_ok_iff.mp taken
        exact .entries isRecord name description ⟨table, functions, entries ▸ has⟩ prelude
          (definitions?_eq_error_iff.mp raised)
      · cases passed
    · cases (plugin?_of_not_isRecord isRecord).symm.trans failed
  · rintro (⟨isRecord, raises⟩ | ⟨isRecord, name, description, functions, has, prelude, raises⟩ |
      ⟨isRecord, name, description, ⟨table, functions, has⟩, prelude, raises⟩)
    · exact plugin?_of_firstRaises isRecord raises
    · rw [plugin?_of_parts isRecord name description functions has prelude,
        takeAll_eq_error_iff.mpr raises]
      rfl
    · rw [plugin?_of_parts isRecord name description functions has prelude,
        takeAll_eq_ok_iff.mpr rfl]
      exact bind_eq_error.mpr
        (.inr ⟨_, rfl, bind_eq_error.mpr (.inl (definitions?_eq_error_iff.mpr raises))⟩)

/-- The check of a tree finds the plugins. -/
theorem exists_plugin?_iff : (∃ p, x.plugin? = .ok (some p)) ↔ x.IsPlugin := by
  constructor
  · rintro ⟨p, accepted⟩
    by_cases isRecord : x.isRecord = true
    · rcases plugin?_cases isRecord with ⟨first, -, ended⟩ | ended |
        ⟨text, given, table, members, source, name, description, functions, has, prelude⟩
      · cases ended.symm.trans accepted
      · cases ended.symm.trans accepted
      rw [plugin?_of_parts isRecord name description functions has prelude] at accepted
      obtain ⟨values, taken, checked⟩ := bind_eq_ok.mp accepted
      obtain ⟨entries, defined, same⟩ := bind_eq_ok.mp checked
      cases entries with
      | none => cases same
      | some entries =>
        have whole := takeAll_eq_ok_iff.mp taken
        exact ⟨isRecord, ⟨text, name⟩, ⟨given, description⟩,
          ⟨values, ⟨table, functions, whole ▸ has⟩,
            exists_definitions?_iff.mp ⟨entries, defined⟩⟩, source, prelude⟩
    · cases (plugin?_of_not_isRecord isRecord).symm.trans accepted
  · rintro ⟨isRecord, ⟨text, name⟩, ⟨description, described⟩,
      ⟨values, ⟨table, functions, has⟩, areFunctions⟩, source, prelude⟩
    obtain ⟨entries, defined⟩ := exists_definitions?_iff.mpr areFunctions
    rw [plugin?_of_parts isRecord name described functions has prelude, takeAll_eq_ok_iff.mpr rfl]
    exact ⟨_, bind_eq_ok.mpr ⟨_, rfl, bind_eq_ok.mpr ⟨some entries, defined, rfl⟩⟩⟩

theorem plugin?_eq_none_iff : x.plugin? = .ok none ↔ ¬ x.IsPlugin ∧ ∀ fault, ¬ x.Raises fault := by
  simp only [← exists_plugin?_iff, ← plugin?_eq_error_iff]
  rcases x.plugin? with fault | _ | p <;> simp

end Cairn.Export
