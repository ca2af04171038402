import Cairn.Proofs.Enumeration
import Cairn.Proofs.OperatorSymbols
import Cairn.Proofs.PluginFailures

set_option autoImplicit false

/-!
# Tables of plugins

What a module exports is checked to the last entry before any of it is registered, so a tree that is
no plugin leaves the machine as it was. The entries of a plugin are registered in the order of their
names, and of two that share an alias the later one has it. One name is lost on the way: an entry
under the reserved name is checked like the others and is not registered.
-/

namespace Cairn

namespace Export

variable {x : Export} {members : List (String × Except Fault Export)}
  {values : List (String × Export)} {entries : List (String × Definition)}

/-- There is nothing to run once the functions are registered. -/
def HasNoPrelude (x : Export) : Prop := ∀ text, x.get "prelude" = .ok (.string text) → text = ""

/-- What is taken from the entries: their names, their routines and the aliases they are given. -/
theorem definitions?_eq_some (accepted : definitions? values = .ok (some entries)) :
    entries.map (·.1) = values.map (·.1) ∧
    entries.filterMap (fun e => e.2.symbol?.map (·, e.1)) =
      values.filterMap (fun e => e.2.alias?.map (·, e.1)) ∧
    ∀ name x, (name, x) ∈ values →
      ∃ d members, (name, d) ∈ entries ∧ x.get "fn" = .ok (.routine d.body members) := by
  induction values generalizing entries with
  | nil =>
    cases accepted
    simp
  | cons e values inductionHypothesis =>
    obtain ⟨d, rest, first, others, rfl⟩ := definitions?_cons.mp accepted
    obtain ⟨names, aliases, bodies⟩ := inductionHypothesis others
    obtain ⟨-, ⟨members, holds⟩, given⟩ := definition?_eq_some first
    refine ⟨by simp [names], by simp [List.filterMap_cons, given, aliases], ?_⟩
    rintro name x member
    rcases List.mem_cons.mp member with rfl | member
    · exact ⟨d, members, by simp, holds⟩
    · obtain ⟨d, members, taken, holds⟩ := bodies name x member
      exact ⟨d, members, List.mem_cons_of_mem _ taken, holds⟩

theorem definitions?_filter (p : String → Bool)
    (accepted : definitions? values = .ok (some entries)) :
    definitions? (values.filter (p ·.1)) = .ok (some (entries.filter (p ·.1))) := by
  induction values generalizing entries with
  | nil =>
    cases accepted
    rfl
  | cons e values inductionHypothesis =>
    obtain ⟨d, rest, first, others, rfl⟩ := definitions?_cons.mp accepted
    cases kept : p e.1 with
    | false => simpa [kept] using inductionHypothesis others
    | true =>
      simp only [List.filter_cons, kept, if_true]
      exact definitions?_cons.mpr ⟨d, _, first, inductionHypothesis others, rfl⟩

/-- The entries of a table that are registered. -/
def kept (values : List (String × Export)) : List (String × Export) :=
  values.filter (·.1 ≠ Plugin.reservedName)

theorem HasFunctions.inOrder (has : x.HasFunctions values) :
    Plugin.InOrder (values.map (·.1)) := by
  obtain ⟨table, -, has⟩ := has
  rw [members?_eq] at has
  obtain ⟨written, -, taken⟩ := Option.map_eq_some_iff.mp has
  have inOrder := Plugin.inOrder_enumerate written
  rw [taken, List.map_map] at inOrder
  exact inOrder

theorem HasFunctions.unique {values' : List (String × Export)} (has : x.HasFunctions values)
    (has' : x.HasFunctions values') : values = values' := by
  obtain ⟨table, holds, taken⟩ := has
  obtain ⟨table', holds', taken'⟩ := has'
  cases holds.symm.trans holds'
  have same := takeAll_eq_ok_iff.mpr (Option.some.inj (taken.symm.trans taken'))
  exact Except.ok.inj ((takeAll_eq_ok_iff.mpr rfl).symm.trans same)

theorem tableOf_entries (has : x.HasFunctions values)
    (accepted : definitions? values = .ok (some entries)) :
    definitions? (kept values) = .ok (some (Plugin.tableOf entries).entries) := by
  have inOrder : Plugin.InOrder ((entries.filter (·.1 ≠ Plugin.reservedName)).map (·.1)) := by
    refine has.inOrder.sublist ?_
    rw [← (definitions?_eq_some accepted).1]
    exact List.filter_sublist.map _
  rw [Plugin.tableOf, Plugin.enumerate_of_inOrder inOrder]
  exact definitions?_filter (fun name => name ≠ Plugin.reservedName) accepted

/-- A plugin has the entries of its table, in their order and but for the reserved name. -/
theorem plugin?_eq_some {p : Plugin} (accepted : x.plugin? = .ok (some p)) :
    p.prelude? = (x.get "prelude").toOption.bind text? ∧
      ∀ values, x.HasFunctions values →
        definitions? (kept values) = .ok (some p.functions.entries) := by
  obtain ⟨isRecord, ⟨text, name⟩, ⟨description, described⟩, ⟨values, has, -⟩, source, prelude⟩ :=
    exists_plugin?_iff.mp ⟨p, accepted⟩
  have ⟨table, functions, members⟩ := has
  rw [plugin?_of_parts isRecord name described functions members prelude,
    takeAll_eq_ok_iff.mpr rfl] at accepted
  obtain ⟨_, same, accepted⟩ := bind_eq_ok.mp accepted
  cases same
  obtain ⟨entries, defined, same⟩ := bind_eq_ok.mp accepted
  cases entries with
  | none => cases same
  | some entries =>
    cases same
    refine ⟨by simp [prelude, Except.toOption], fun values' has' => ?_⟩
    exact has.unique has' ▸ tableOf_entries has defined

end Export

namespace Plugin

open Machine Export

variable {w : World} {name : String} {base : Path} {fault : Fault} {m m' : Machine} {fuel : Nat}
  {x y : Export} {p : Plugin} {entries : List (String × Definition)}
  {values : List (String × Export)}

/-- What registering the entries of a table makes of a machine. Names that are known keep their
place, the others follow in order, and of two entries with one alias the later one has it. -/
structure Registers (values : List (String × Export)) (m m' : Machine) : Prop where
  names : m'.functions.keys =
    m.functions.keys ++ (values.map (·.1)).filter (· ∉ m.functions.keys)
  bodies : ∀ name x, (name, x) ∈ values →
    ∃ body members, x.get "fn" = .ok (.routine body members) ∧
      m'.functions.find? name = some body
  others : ∀ name ∉ values.map (·.1), m'.functions.find? name = m.functions.find? name
  symbols : ∀ symbol, m'.operators.find? symbol =
    ((values.reverse.find? (·.2.alias? = some symbol)).map (·.1)).or (m.operators.find? symbol)
  stack : m'.stack = m.stack
  output : m'.output = m.output

/-- Every alias that is given is a single character. -/
def SingleAliases (entries : List (String × Definition)) : Prop :=
  ∀ e ∈ entries, ∀ symbol, e.2.symbol? = some symbol → symbol.length = 1

/-- A machine with functions registered in turn. -/
def registered (entries : List (String × Definition)) (m : Machine) : Machine :=
  { m with
    functions := m.functions.insertAll (entries.map fun e => (e.1, e.2.body))
    operators := m.operators.insertAll (entries.filterMap fun e => e.2.symbol?.map (·, e.1)) }

theorem perform_addFunction_none (fuel : Nat) (name : String) (body : Routine Unit) (m : Machine) :
    perform fuel (Routine.addFunction none name body) m = .done () (m.define name body) := rfl

theorem perform_addAll (singles : SingleAliases entries) (fuel : Nat) (m : Machine) :
    perform fuel (addAll entries) m = .done () (registered entries m) := by
  induction entries generalizing m with
  | nil => rfl
  | cons e entries inductionHypothesis =>
    obtain ⟨name, symbol?, description?, body⟩ := e
    obtain ⟨single, others⟩ := List.forall_mem_cons.mp singles
    rw [addAll, perform_bind]
    cases symbol? with
    | none =>
      rw [perform_addFunction_none]
      exact inductionHypothesis others _
    | some symbol =>
      rw [perform_addFunction_some, if_pos (single symbol rfl)]
      exact inductionHypothesis others _

theorem singleAliases_of_addAll (done : perform fuel (addAll entries) m = .done () m') :
    SingleAliases entries := by
  induction entries generalizing m with
  | nil => exact fun e member => absurd member List.not_mem_nil
  | cons e entries inductionHypothesis =>
    obtain ⟨name, symbol?, description?, body⟩ := e
    rw [addAll, perform_bind] at done
    cases symbol? with
    | none =>
      rw [perform_addFunction_none] at done
      exact List.forall_mem_cons.mpr ⟨by simp, inductionHypothesis done⟩
    | some symbol =>
      rw [perform_addFunction_some] at done
      split at done
      next single => exact List.forall_mem_cons.mpr ⟨by simpa, inductionHypothesis done⟩
      next => cases done

theorem find?_aliases (values : List (String × Export)) (symbol : String) :
    ((values.filterMap fun e => e.2.alias?.map (·, e.1)).find? (·.1 = symbol)).map (·.2) =
      (values.find? (·.2.alias? = some symbol)).map (·.1) := by
  have asked : (fun e : String × Export => (e.2.alias?.map (·, e.1)).any (·.1 = symbol)) =
      fun e => decide (e.2.alias? = some symbol) := by
    funext e
    cases e.2.alias? <;> simp
  rw [List.find?_filterMap, asked]
  cases found : values.find? (·.2.alias? = some symbol) with
  | none => rfl
  | some e =>
    have given : e.2.alias? = some symbol := by simpa using List.find?_some found
    simp [given]

theorem registers_registered (inOrder : InOrder (values.map (·.1)))
    (defined : definitions? values = .ok (some entries)) :
    Registers values m (registered entries m) := by
  obtain ⟨names, aliases, bodies⟩ := definitions?_eq_some defined
  have keys : (entries.map fun e => (e.1, e.2.body)).map (·.1) = values.map (·.1) := by
    rw [List.map_map]
    exact names
  refine ⟨?_, ?_, ?_, ?_, rfl, rfl⟩
  · rw [← keys]
    exact Table.keys_insertAll_of_nodup (keys ▸ inOrder.nodup)
  · intro name x member
    obtain ⟨d, members, taken, holds⟩ := bodies name x member
    exact ⟨d.body, members, holds, Table.find?_insertAll_of_mem (keys ▸ inOrder.nodup)
      (List.mem_map.mpr ⟨_, taken, rfl⟩)⟩
  · intro name unnamed
    exact Table.find?_insertAll_of_notMem (keys ▸ unnamed)
  · intro symbol
    refine Table.find?_insertAll.trans ?_
    rw [aliases, ← List.filterMap_reverse, find?_aliases]

theorem forall_aliases_iff {α : Type 1} (alias? : α → Option String) (l : List (String × α)) :
    (∀ pair ∈ l.filterMap fun e => (alias? e.2).map (·, e.1), pair.1.length = 1) ↔
      ∀ e ∈ l, ∀ symbol, alias? e.2 = some symbol → symbol.length = 1 := by
  simp only [List.forall_mem_filterMap, Option.map_eq_some_iff, forall_exists_index, and_imp,
    forall_apply_eq_imp_iff₂]

theorem singleAliases_iff (defined : definitions? values = .ok (some entries)) :
    SingleAliases entries ↔
      ∀ e ∈ values, ∀ symbol, e.2.alias? = some symbol → symbol.length = 1 := by
  rw [← forall_aliases_iff alias? values, ← (definitions?_eq_some defined).2.1]
  exact (forall_aliases_iff Definition.symbol? entries).symm

/-- What is traced once a plugin is installed. -/
def announcement (p : Plugin) : String :=
  "Loaded plugin \"" ++ p.name ++ "\" (" ++ toString p.functions.entries.length ++ " functions)"

theorem perform_install (bare : p.prelude?.getD "" = "") (fuel : Nat) (m : Machine) :
    perform fuel p.install m = (perform fuel (addAll p.functions.entries) m).bind
      fun _ m' => .done () (m'.trace p.announcement) := by
  refine (perform_bind fuel ..).trans ?_
  congr 1
  funext _ m'
  cases given : p.prelude? with
  | none => rfl
  | some text =>
    rw [given] at bare
    cases bare
    rfl

theorem install_done_iff (bare : p.prelude?.getD "" = "") :
    perform fuel p.install m = .done () m' ↔ SingleAliases p.functions.entries ∧
      m' = (registered p.functions.entries m).trace p.announcement := by
  rw [perform_install bare]
  constructor
  · intro done
    cases ran : perform fuel (addAll p.functions.entries) m with
    | done _ middle =>
      have singles := singleAliases_of_addAll ran
      rw [perform_addAll singles] at done
      cases done
      exact ⟨singles, rfl⟩
    | failed fault middle =>
      rw [ran] at done
      cases done
    | exhausted =>
      rw [ran] at done
      cases done
  · rintro ⟨singles, rfl⟩
    rw [perform_addAll singles]
    rfl

theorem Registers.trace (registers : Registers values m m') (message : String) :
    Registers values m (m'.trace message) := by
  obtain ⟨names, bodies, others, symbols, stack, output⟩ := registers
  unfold Machine.trace
  split <;> exact ⟨names, bodies, others, symbols, stack, output⟩

/-- A module stands where a name is looked up, and this is what it exports. -/
def Exports (w : World) (name : String) (base : Path) (x : Export) : Prop :=
  ∃ path, FindsModule w name base path ∧ Module.load w.files path = .ok x

theorem fetch_of_exports (exports : Exports w name base x) :
    fetch w name base = accept name x := by
  obtain ⟨path, found, loaded⟩ := exports
  rw [fetch_module found, loaded]

theorem load_of_refuses (exports : Exports w name base x) (refuses : Refuses x fault)
    (fuel : Nat) (m : Machine) : perform fuel (load w name base) m = .failed fault m := by
  rw [perform_load, fetch_of_exports exports, accept_eq_error_iff.mpr (.inl refuses)]

theorem load_of_plugin?_none (exports : Exports w name base x) (primary : x.primary = .ok y)
    (rejected : y.plugin? = .ok none) (fuel : Nat) (m : Machine) :
    perform fuel (load w name base) m = .failed (.plugin (.invalid name)) m := by
  rw [perform_load, fetch_of_exports exports,
    accept_eq_error_iff.mpr (.inr ⟨y, primary, rejected, rfl⟩)]

theorem load_of_plugin?_some (exports : Exports w name base x) (primary : x.primary = .ok y)
    (accepted : y.plugin? = .ok (some p)) (fuel : Nat) (m : Machine) :
    perform fuel (load w name base) m = (perform fuel p.install m).mapFault fun fault =>
      .plugin (.setupFailed name fault.message) := by
  have fetched : fetch w name base = .ok (.module p) := by
    rw [fetch_of_exports exports, accept, primary]
    exact bind_eq_ok.mpr ⟨_, rfl, bind_eq_ok.mpr ⟨_, accepted, rfl⟩⟩
  rw [perform_load, fetched]
  dsimp only
  rw [Source.install, perform_attempt_bind]
  cases ran : perform fuel p.install m with
  | failed fault m' =>
    change perform fuel (Source.failFor fault (.setupFailed name)) m' = _
    rw [Source.failFor, Tells.install p fuel m fault m' ran]
    rfl
  | _ => rfl

theorem load_done_iff (exports : Exports w name base x) (primary : x.primary = .ok y)
    (accepted : y.plugin? = .ok (some p)) (bare : y.HasNoPrelude) :
    perform fuel (load w name base) m = .done () m' ↔ SingleAliases p.functions.entries ∧
      m' = (registered p.functions.entries m).trace p.announcement := by
  have nothing : p.prelude?.getD "" = "" := by
    rw [(plugin?_eq_some accepted).1]
    cases given : y.get "prelude" with
    | error fault => rfl
    | ok source =>
      cases source with
      | string text => exact bare text given
      | _ => rfl
  rw [load_of_plugin?_some exports primary accepted, Outcome.mapFault_eq_done,
    install_done_iff nothing]

/-- What a module exports is rejected, unless it is a plugin, before anything is registered. Of a
plugin without a prelude all entries but the one of the reserved name are registered in order. -/
theorem plugin_registered_or_rejected (w : World) (name : String) (base : Path) (x : Export)
    (m : Machine) (exports : Exports w name base x) :
    (∀ fault, Refuses x fault → ∀ fuel, perform fuel (load w name base) m = .failed fault m) ∧
    ∀ y, x.primary = .ok y →
      (¬ y.IsPlugin → (∀ fault, ¬ y.Raises fault) → ∀ fuel,
        perform fuel (load w name base) m = .failed (.plugin (.invalid name)) m) ∧
      (y.IsPlugin → ∀ fuel m',
        perform fuel (load w name base) m ≠ .failed (.plugin (.invalid name)) m') ∧
      (y.IsPlugin → y.HasNoPrelude → ∀ values, y.HasFunctions values →
        (∃ table written, y.get "functions" = .ok table ∧ table.written? = some written ∧
          Enumerates written (values.map fun e => (e.1, .ok e.2))) ∧
        ∀ fuel,
          ((∃ m', perform fuel (load w name base) m = .done () m') ↔
            ∀ e ∈ kept values, ∀ symbol, e.2.alias? = some symbol → symbol.length = 1) ∧
          ∀ m', perform fuel (load w name base) m = .done () m' →
            Registers (kept values) m m') := by
  refine ⟨fun fault refuses fuel => load_of_refuses exports refuses fuel m, fun y primary => ?_⟩
  refine ⟨fun rejected sound fuel => ?_, fun isPlugin fuel m' failed => ?_,
    fun isPlugin bare values has => ?_⟩
  · exact load_of_plugin?_none exports primary (plugin?_eq_none_iff.mpr ⟨rejected, sound⟩) fuel m
  · obtain ⟨p, accepted⟩ := exists_plugin?_iff.mpr isPlugin
    rw [load_of_plugin?_some exports primary accepted] at failed
    obtain ⟨inner, -, same⟩ := Outcome.mapFault_eq_failed failed
    cases same
  · obtain ⟨p, accepted⟩ := exists_plugin?_iff.mpr isPlugin
    have defined := (plugin?_eq_some accepted).2 values has
    refine ⟨?_, fun fuel => ⟨?_, ?_⟩⟩
    · obtain ⟨table, holds, members⟩ := has
      rw [members?_eq] at members
      obtain ⟨written, written', taken⟩ := Option.map_eq_some_iff.mp members
      exact ⟨table, written, holds, written', taken ▸ enumerates_enumerate written⟩
    · rw [← singleAliases_iff defined]
      simp [load_done_iff exports primary accepted bare]
    · intro m' done
      obtain ⟨-, rfl⟩ := (load_done_iff exports primary accepted bare).mp done
      have inOrder : InOrder ((kept values).map (·.1)) :=
        has.inOrder.sublist (List.filter_sublist.map _)
      exact (registers_registered inOrder defined).trace _

theorem exports_of_approve {path : Path} (found : FindsModule w name base path)
    (approved : (Module.approve w.files path).toOption = some path)
    (exported : Module.exportOf w.files path = .ok x) : Exports w name base x :=
  ⟨path, found, (load_of_approve approved).trans exported⟩

/-- A function entry that prints its own alias. -/
def printing (symbol : String) : Export :=
  .record [("alias", .ok (.string symbol)), ("fn", .ok (.routine (Routine.emit symbol) []))]

theorem printing_isFunction (symbol : String) : (printing symbol).IsFunction where
  isRecord := rfl
  body := ⟨Routine.emit symbol, [], by simp [printing, get_record, lastWritten]⟩
  symbol := .inr ⟨symbol, by simp [printing, get_record, lastWritten]⟩
  description := ⟨.undefined, by simp [printing, get_record, lastWritten]⟩

theorem alias?_printing (symbol : String) : (printing symbol).alias? = some symbol := by
  simp [alias?, printing, get_record, lastWritten, Except.toOption, text?]

theorem length_of_alias?_printing {symbol : String} (single : symbol.length = 1) :
    ∀ given, (printing symbol).alias? = some given → given.length = 1 := by
  simp [alias?_printing, single]

def named (name : String) (functions : Export) : Export :=
  .record [("name", .ok (.string name)), ("functions", .ok functions)]

section Named

variable {functions : Export} (name)

@[simp] theorem get_named (functions : Export) (member : String) :
    (named name functions).get member =
      if member = "functions" then .ok functions
      else if member = "name" then .ok (.string name) else .ok .undefined := by
  rw [named, get_record, lastWritten]
  by_cases isTable : member = "functions"
  · simp [isTable]
  · by_cases isName : member = "name" <;> simp [isTable, isName, eq_comm]

theorem named_hasFunctions (has : functions.members? = some (values.map fun e => (e.1, .ok e.2))) :
    (named name functions).HasFunctions values :=
  ⟨functions, by simp, has⟩

theorem named_isPlugin (has : functions.members? = some (values.map fun e => (e.1, .ok e.2)))
    (areFunctions : ∀ e ∈ values, e.2.IsFunction) : (named name functions).IsPlugin where
  isRecord := rfl
  name := ⟨name, by simp⟩
  description := ⟨.undefined, by simp⟩
  functions := ⟨values, named_hasFunctions name has, areFunctions⟩
  source := ⟨.undefined, by simp⟩

theorem named_hasNoPrelude (functions : Export) : (named name functions).HasNoPrelude := by
  simp [HasNoPrelude]

theorem primary_named (functions : Export) :
    (named name functions).primary = .ok (named name functions) := by
  simp [Export.primary, named, Export.isRecord, members?, member?_record, lastWritten]

end Named

/-- Indices among the names, and an alias given twice. -/
def mixed : List (String × Export) :=
  [("b", printing "P"), ("10", printing "Q"), ("a", printing "R"), ("2", printing "P")]

def mixedInOrder : List (String × Export) :=
  [("2", printing "P"), ("10", printing "Q"), ("b", printing "P"), ("a", printing "R")]

theorem members?_mixed : (Export.record (mixed.map fun e => (e.1, .ok e.2))).members? =
    some (mixedInOrder.map fun e => (e.1, .ok e.2)) := by
  cbv

theorem kept_mixed : kept mixedInOrder = mixedInOrder := by
  simp [kept, mixedInOrder, reservedName]

theorem single_mixed :
    ∀ e ∈ mixedInOrder, ∀ symbol, e.2.alias? = some symbol → symbol.length = 1 := by
  simp only [mixedInOrder, List.forall_mem_cons]
  exact ⟨length_of_alias?_printing rfl, length_of_alias?_printing rfl,
    length_of_alias?_printing rfl, length_of_alias?_printing rfl, by simp⟩

/-- A record whose base is a function, which has a name. -/
def inheriting : Export :=
  .derived (.routine (.done ()) [("name", .ok (.string "f"))]) [("functions", .ok (.array []))]

/-- Surroundings with a default export, a plugin that is broken off by its second entry, one named
by a function, and one with an entry under the reserved name. -/
def furnished : World where
  files := ⟨[
    (⟨"", ["plugins", "mixed.js"]⟩, .module (.ok (.record
      [("default", .ok (named "mixed" (.record (mixed.map fun e => (e.1, .ok e.2)))))]))),
    (⟨"", ["plugins", "halfway.js"]⟩,
      .module (.ok (named "halfway" (.array [printing "P", .record []])))),
    (⟨"", ["plugins", "inheriting.js"]⟩, .module (.ok inheriting)),
    (⟨"", ["plugins", "shadowed.js"]⟩, .module (.ok (named "shadowed"
      (.derived .null [(reservedName, .ok (printing "P"))]))))]⟩
  directory := .root
  environment := {}

theorem exports_furnished (listed : name ∈ ["mixed", "halfway", "inheriting", "shadowed"])
    (exported : Module.exportOf furnished.files (pluginPath (name ++ ".js")) = .ok x) :
    Exports furnished name .root x := by
  have found : ∀ name ∈ ["mixed", "halfway", "inheriting", "shadowed"],
      FindsModule furnished name .root (pluginPath (name ++ ".js")) := by
    unfold FindsModule
    decide +kernel
  have approved : ∀ name ∈ ["mixed", "halfway", "inheriting", "shadowed"],
      (Module.approve furnished.files (pluginPath (name ++ ".js"))).toOption =
        some (pluginPath (name ++ ".js")) := by decide +kernel
  exact exports_of_approve (found name listed) (approved name listed) exported

theorem halfway_plugin? :
    (named "halfway" (.array [printing "P", .record []])).plugin? = .ok none := by
  obtain ⟨d, first⟩ := (printing_isFunction "P").exists_definition?
  have second : (Export.record []).definition? = .ok none := by
    rw [definition?_of_isRecord rfl, get_record, get_record]
    rfl
  rw [plugin?_of_parts rfl (get_named ..) (get_named ..) (get_named ..) rfl (get_named ..)]
  simp [takeAll, definitions?, first, second, bind, Except.bind, pure, Except.pure]

theorem inheriting_hasFunctions : inheriting.HasFunctions [] :=
  ⟨.array [], by simp [inheriting, get_derived, lastWritten], rfl⟩

theorem inheriting_isPlugin : inheriting.IsPlugin where
  isRecord := rfl
  name := ⟨"f", by simp [inheriting, get_derived, member?_routine, lastWritten]⟩
  description := ⟨.undefined, by simp [inheriting, get_derived, member?_routine, lastWritten]⟩
  functions := ⟨[], inheriting_hasFunctions, by simp⟩
  source := ⟨.undefined, by simp [inheriting, get_derived, member?_routine, lastWritten]⟩

theorem inheriting_hasNoPrelude : inheriting.HasNoPrelude := by
  simp [HasNoPrelude, inheriting, get_derived, member?_routine, lastWritten]

theorem mixed_exported : Exports furnished "mixed" .root
    (.record [("default", .ok (named "mixed" (.record (mixed.map fun e => (e.1, .ok e.2)))))]) :=
  exports_furnished (by simp) rfl

theorem halfway_exported : Exports furnished "halfway" .root
    (named "halfway" (.array [printing "P", .record []])) :=
  exports_furnished (by simp) rfl

theorem inheriting_exported : Exports furnished "inheriting" .root inheriting :=
  exports_furnished (by simp) rfl

theorem shadowed_exported : Exports furnished "shadowed" .root
    (named "shadowed" (.derived .null [(reservedName, .ok (printing "P"))])) :=
  exports_furnished (by simp) rfl

/-- Known names keep their place, indices come first, and the later of two entries has the alias. -/
theorem plugin_registered_or_rejected_furnished :
    (∃ m', perform 1 (load furnished "mixed" .root) { functions := ⟨[("b", .done ())]⟩ } =
        .done () m' ∧
      m'.functions.keys = ["b", "2", "10", "a"] ∧ m'.operators.find? "P" = some "b") ∧
    perform 1 (load furnished "halfway" .root) { stack := [.boolean true] } =
      .failed (.plugin (.invalid "halfway")) { stack := [.boolean true] } ∧
    ∃ m', perform 1 (load furnished "inheriting" .root) {} = .done () m' ∧
      m'.functions.keys = [] := by
  refine ⟨?_, ?_, ?_⟩
  · obtain ⟨-, -, loads⟩ := (plugin_registered_or_rejected furnished "mixed" .root _
      { functions := ⟨[("b", .done ())]⟩ } mixed_exported).2
      (named "mixed" (.record (mixed.map fun e => (e.1, .ok e.2))))
      (by simp [Export.primary, Export.isRecord, members?, member?_record, lastWritten])
    obtain ⟨-, loads⟩ := loads
      (named_isPlugin "mixed" members?_mixed (by simp [mixedInOrder, printing_isFunction]))
      (named_hasNoPrelude "mixed" _) _ (named_hasFunctions "mixed" members?_mixed)
    rw [kept_mixed] at loads
    obtain ⟨m', loaded⟩ := (loads 1).1.mpr single_mixed
    have registers := (loads 1).2 m' loaded
    refine ⟨m', loaded, registers.names.trans (by decide +kernel), (registers.symbols "P").trans ?_⟩
    simp [mixedInOrder, alias?_printing]
  · obtain ⟨isNone, sound⟩ := plugin?_eq_none_iff.mp halfway_plugin?
    exact ((plugin_registered_or_rejected furnished "halfway" .root _ _ halfway_exported).2 _
      (primary_named ..)).1 isNone sound 1
  · obtain ⟨-, -, loads⟩ := (plugin_registered_or_rejected furnished "inheriting" .root _
      {} inheriting_exported).2 inheriting
      (by simp [Export.primary, inheriting, member?_derived, member?_routine, lastWritten])
    obtain ⟨-, loads⟩ :=
      loads inheriting_isPlugin inheriting_hasNoPrelude [] inheriting_hasFunctions
    obtain ⟨m', loaded⟩ := (loads 1).1.mpr (by simp [kept])
    exact ⟨m', loaded, ((loads 1).2 m' loaded).names⟩

/-- An entry under the reserved name is a function like any other and is not registered, nor is its
alias. -/
theorem load_loses_reserved_name :
    (named "shadowed" (.derived .null [(reservedName, .ok (printing "P"))])).IsPlugin ∧
    ∃ m', perform 1 (load furnished "shadowed" .root) {} = .done () m' ∧
      m'.functions.keys = [] ∧ m'.operators.find? "P" = none ∧
      ¬ Registers [(reservedName, printing "P")] {} m' := by
  have has : (Export.derived .null [(reservedName, .ok (printing "P"))]).members? =
      some ([(reservedName, printing "P")].map fun e => (e.1, .ok e.2)) :=
    congrArg some (enumerate_of_inOrder ⟨by simp, by simp⟩)
  have isPlugin := named_isPlugin "shadowed" has (by simp [printing_isFunction])
  obtain ⟨p, accepted⟩ := exists_plugin?_iff.mpr isPlugin
  have nothing : p.functions.entries = [] := by
    have defined := (plugin?_eq_some accepted).2 _ (named_hasFunctions "shadowed" has)
    have kept : kept [(reservedName, printing "P")] = [] := by simp [kept]
    rw [kept] at defined
    exact (Option.some.inj (Except.ok.inj defined)).symm
  have loaded : perform 1 (load furnished "shadowed" .root) {} =
      .done () ((registered p.functions.entries {}).trace p.announcement) :=
    (load_done_iff shadowed_exported (primary_named ..) accepted
      (named_hasNoPrelude "shadowed" _)).mpr ⟨by simp [nothing, SingleAliases], rfl⟩
  rw [nothing] at loaded
  refine ⟨isPlugin, _, loaded, rfl, rfl, fun registers => ?_⟩
  cases registers.names

end Plugin

end Cairn
