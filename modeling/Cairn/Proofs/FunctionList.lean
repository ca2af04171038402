import Cairn.Proofs.HumanLayout
import Cairn.Proofs.OperatorSymbols
import Cairn.Proofs.TextOrder

set_option autoImplicit false

/-!
# The list of functions

The table of operators leads from symbols to names and the list of functions shows it the other way
round, with the last symbol that stands for a name; of the descriptions that plugins give to a name
it shows the last one that is not empty. Tables can hold a symbol for a name that is no longer
registered, or has never been. Such a symbol is in no row.
-/

namespace Cairn

/-- The last entry of a list that passes a test. -/
theorem find?_reverse_eq_some_iff {α : Type*} {p : α → Bool} {entries : List α} {e : α} :
    entries.reverse.find? p = some e ↔
      p e = true ∧ ∃ before after, entries = before ++ e :: after ∧ ∀ x ∈ after, p x = false := by
  rw [List.find?_eq_some_iff_append]
  refine and_congr_right fun _ => ?_
  constructor
  · rintro ⟨after, before, split, others⟩
    refine ⟨before.reverse, after.reverse, ?_, fun x member => ?_⟩
    · simpa using congrArg List.reverse split
    · simpa using others x (List.mem_reverse.mp member)
  · rintro ⟨before, after, rfl, others⟩
    refine ⟨after.reverse, before.reverse, by simp, fun x member => ?_⟩
    simp [others x (List.mem_reverse.mp member)]

namespace Plugin

/-- An entry gives a name a description. An empty text is none. -/
def Describes (e : String × Definition) (name text : String) : Prop :=
  e.1 = name ∧ e.2.description? = some text ∧ text ≠ ""

/-- The description that is shown for a name of which entries give descriptions in turn. -/
inductive Described (entries : List (String × Definition)) (name : String) : String → Prop
  | last {before after : List (String × Definition)} {e : String × Definition} {text : String}
      (split : entries = before ++ e :: after) (describes : Describes e name text)
      (others : ∀ x ∈ after, ∀ t, ¬ Describes x name t) : Described entries name text
  | missing (nothing : ∀ x ∈ entries, ∀ t, ¬ Describes x name t) : Described entries name ""

/-- The description that an entry gives, with its name. -/
def described? (e : String × Definition) : Option (String × String) :=
  match e.2.description? with
  | some text => if text = "" then none else some (e.1, text)
  | none => none

theorem described?_eq_some_iff {e : String × Definition} {name text : String} :
    described? e = some (name, text) ↔ Describes e name text := by
  unfold described? Describes
  cases e.2.description? with
  | none => simp
  | some given =>
    by_cases empty : given = ""
    · simp [empty, eq_comm]
    · simp only [if_neg empty, Option.some.injEq, Prod.mk.injEq]
      refine and_congr_right fun _ => ⟨?_, fun ⟨same, _⟩ => same⟩
      rintro rfl
      exact ⟨rfl, empty⟩

theorem describe_eq (descriptions : Table String) (p : Plugin) :
    describe descriptions p =
      descriptions.insertAll (p.functions.entries.filterMap described?) := by
  unfold describe
  induction p.functions.entries generalizing descriptions with
  | nil => rfl
  | cons e entries inductionHypothesis =>
    rw [List.foldl_cons, inductionHypothesis, List.filterMap_cons]
    obtain ⟨name, symbol?, description?, body⟩ := e
    cases description? with
    | none => rfl
    | some text =>
      by_cases empty : text = ""
      · simp only [described?, empty, if_true]
      · simp only [described?, empty, if_false, Table.insertAll_cons]

theorem descriptions_eq (plugins : List Plugin) :
    descriptions plugins =
      Table.empty.insertAll ((plugins.flatMap (·.functions.entries)).filterMap described?) := by
  unfold descriptions
  generalize Table.empty = start
  induction plugins generalizing start with
  | nil => rfl
  | cons p plugins inductionHypothesis =>
    rw [List.foldl_cons, inductionHypothesis, describe_eq, List.flatMap_cons, List.filterMap_append]
    simp only [Table.insertAll, List.foldl_append]

theorem find?_descriptions (plugins : List Plugin) (name : String) :
    (descriptions plugins).find? name =
      (((plugins.flatMap (·.functions.entries)).reverse.find? fun e =>
        (described? e).any (·.1 = name)).bind described?).map (·.2) := by
  rw [descriptions_eq, Table.find?_insertAll, ← List.filterMap_reverse, List.find?_filterMap]
  simp [Table.empty, Table.find?]

theorem described_of_descriptions (plugins : List Plugin) (name : String) :
    Described (plugins.flatMap (·.functions.entries)) name
      (((descriptions plugins).find? name).getD "") := by
  have counts : ∀ e, (described? e).any (·.1 = name) = true ↔ ∃ text, Describes e name text := by
    intro e
    simp only [Option.any_eq_true, Prod.exists, decide_eq_true_eq, ← described?_eq_some_iff]
    constructor
    · rintro ⟨_, text, shown, rfl⟩
      exact ⟨text, shown⟩
    · rintro ⟨text, shown⟩
      exact ⟨name, text, shown, rfl⟩
  rw [find?_descriptions]
  cases found : (plugins.flatMap (·.functions.entries)).reverse.find? fun e =>
      (described? e).any (·.1 = name) with
  | none =>
    refine .missing fun e member text describes => ?_
    have none := List.find?_eq_none.mp found e (List.mem_reverse.mpr member)
    exact none ((counts e).mpr ⟨text, describes⟩)
  | some e =>
    obtain ⟨passes, before, after, split, others⟩ := find?_reverse_eq_some_iff.mp found
    obtain ⟨text, describes⟩ := (counts e).mp passes
    have shown := described?_eq_some_iff.mpr describes
    rw [Option.bind_some, shown]
    refine .last split describes fun x member t describes' => ?_
    have passes' := (counts x).mpr ⟨t, describes'⟩
    rw [others x member] at passes'
    cases passes'

end Plugin

namespace Display

/-- A line of the function list: a name, the symbol in front of it if there is any, and the
description behind it. -/
structure Row where
  name : String
  symbol? : Option String
  description : String

/-- A row with the blanks at its end. The names take as many units as are given for them. -/
def Row.text (r : Row) (nameWidth : Nat) : String :=
  "  " ++ r.symbol?.getD " " ++ "  " ++ Text.padRight r.name nameWidth ++ "  " ++ r.description

/-- The symbol that is shown for a name: the last one in a table of operators that stands for it. -/
inductive ShownSymbol (operators : Table String) (name : String) : Option String → Prop
  | last {before after : List (String × String)} {symbol : String}
      (split : operators.entries = before ++ (symbol, name) :: after)
      (others : ∀ e ∈ after, e.2 ≠ name) : ShownSymbol operators name (some symbol)
  | blank (unnamed : ∀ e ∈ operators.entries, e.2 ≠ name) : ShownSymbol operators name none

theorem shownSymbol_symbolOf? (operators : Table String) (name : String) :
    ShownSymbol operators name (symbolOf? operators name) := by
  unfold symbolOf?
  cases found : operators.entries.reverse.find? (·.2 = name) with
  | none =>
    refine .blank fun e member => ?_
    simpa using List.find?_eq_none.mp found e (List.mem_reverse.mpr member)
  | some e =>
    obtain ⟨named, before, after, split, others⟩ := find?_reverse_eq_some_iff.mp found
    obtain ⟨symbol, target⟩ := e
    obtain rfl : target = name := by simpa using named
    exact .last split fun x member => by simpa using others x member

theorem ShownSymbol.find? {operators : Table String} {name symbol : String}
    (shown : ShownSymbol operators name (some symbol)) (nodup : operators.keys.Nodup) :
    operators.find? symbol = some name := by
  cases shown with
  | last split =>
    rw [Table.find?_eq_some_iff nodup, split]
    simp

theorem ShownSymbol.find?_ne {operators : Table String} {name : String}
    (shown : ShownSymbol operators name none) (symbol : String) :
    operators.find? symbol ≠ some name := by
  cases shown with
  | blank unnamed => exact fun found => unnamed _ (Table.mem_of_find? found) rfl

theorem width_padRight {s : String} {n : Nat} (fits : Text.width s ≤ n) :
    Text.width (Text.padRight s n) = n := by
  rw [Text.padRight, Text.width_append, Text.width_blanks]
  omega

theorem le_foldl_max {widths : List Nat} {start n : Nat} (bounded : n ≤ start ∨ n ∈ widths) :
    n ≤ widths.foldl max start := by
  induction widths generalizing start with
  | nil => simpa using bounded
  | cons k widths inductionHypothesis =>
    apply inductionHypothesis
    rcases bounded with before | member
    · exact .inl (le_max_of_le_left before)
    · rcases List.mem_cons.mp member with rfl | later
      · exact .inl (le_max_right ..)
      · exact .inr later

/-- A row shows what a machine and its plugins say about a function. -/
structure Row.Faithful (r : Row) (m : Machine) (plugins : List Plugin) : Prop where
  symbol : ShownSymbol m.operators r.name r.symbol?
  resolves : ∀ symbol, r.symbol? = some symbol → m.operators.find? symbol = some r.name
  blank : r.symbol? = none → ∀ symbol, m.operators.find? symbol ≠ some r.name
  description : Plugin.Described (plugins.flatMap (·.functions.entries)) r.name r.description

/-- The column of the descriptions does not depend on the name. -/
theorem Row.text_eq_append {r : Row} {nameWidth : Nat} (fits : Text.width r.name ≤ nameWidth)
    (single : Text.width (r.symbol?.getD " ") = 1) :
    ∃ front, r.text nameWidth = front ++ r.description ∧ Text.width front = nameWidth + 7 := by
  refine ⟨_, rfl, ?_⟩
  have gap : Text.width "  " = 2 := by decide
  simp only [Text.width_append, width_padRight fits, single, gap]
  omega

/-- The rows of a function list. -/
def functionRows (m : Machine) (plugins : List Plugin) : List Row :=
  (Text.sort m.view.functions).map fun name =>
    ⟨name, symbolOf? m.operators name, ((Plugin.descriptions plugins).find? name).getD ""⟩

/-- The units that the longest name takes. -/
def nameWidth (m : Machine) : Nat :=
  ((Text.sort m.view.functions).map Text.width).foldl max 0

theorem functionList_eq (m : Machine) (plugins : List Plugin) :
    functionList m.view (Plugin.descriptions plugins) =
      (functionRows m plugins).map fun r => Text.trimRight (r.text (nameWidth m)) := by
  rw [functionRows, List.map_map]
  rfl

theorem names_functionRows (m : Machine) (plugins : List Plugin) :
    (functionRows m plugins).map (·.name) = Text.sort m.view.functions := by
  rw [functionRows, List.map_map]
  exact List.map_id _

theorem Row.faithful_of_mem {m : Machine} {plugins : List Plugin} {r : Row}
    (keyed : m.WellKeyed) (member : r ∈ functionRows m plugins) : r.Faithful m plugins := by
  obtain ⟨name, -, rfl⟩ := List.mem_map.mp member
  have shown := shownSymbol_symbolOf? m.operators name
  refine ⟨shown, fun symbol found => ?_, fun absent => ?_, Plugin.described_of_descriptions ..⟩
  · rw [show symbolOf? m.operators name = some symbol from found] at shown
    exact shown.find? keyed.operators
  · rw [show symbolOf? m.operators name = none from absent] at shown
    exact shown.find?_ne

theorem width_le_nameWidth {m : Machine} {plugins : List Plugin} {r : Row}
    (member : r ∈ functionRows m plugins) : Text.width r.name ≤ nameWidth m := by
  refine le_foldl_max (.inr (List.mem_map_of_mem ?_))
  rw [← names_functionRows m plugins]
  exact List.mem_map_of_mem member

end Display

namespace Machine

open Display

variable {m : Machine}

/-- The function list has one row for each registered function, in order, with the last symbol that
resolves to it and the last description that is not empty. -/
theorem function_list_is_faithful (reachable : Reachable m) (plugins : List Plugin) :
    ∃ (rows : List Row) (nameWidth column : Nat),
      functionList m.view (Plugin.descriptions plugins) =
        rows.map (fun r => Text.trimRight (r.text nameWidth)) ∧
      (rows.map (·.name)).Pairwise Text.Precedes ∧
      (∀ name, name ∈ rows.map (·.name) ↔ m.knows name = true) ∧
      (∀ r ∈ rows, r.Faithful m plugins) ∧
      (∀ symbol name, m.operators.find? symbol = some name → m.knows name = false →
        ∀ r ∈ rows, r.symbol? ≠ some symbol) ∧
      ∀ r ∈ rows, Text.width (r.symbol?.getD " ") = 1 →
        ∃ front, r.text nameWidth = front ++ r.description ∧ Text.width front = column := by
  have keyed := reachable.wellKeyed
  have known : ∀ name, name ∈ (functionRows m plugins).map (·.name) ↔ m.knows name = true := by
    intro name
    rw [names_functionRows, Text.mem_sort, knows, Table.contains_iff]
    rfl
  refine ⟨functionRows m plugins, nameWidth m, nameWidth m + 7, functionList_eq m plugins, ?_,
    known, fun r => Row.faithful_of_mem keyed, ?_,
    fun r member => Row.text_eq_append (width_le_nameWidth member)⟩
  · rw [names_functionRows]
    exact Text.pairwise_sort keyed.functions
  · intro symbol name found unknown r member shown
    have resolves := (Row.faithful_of_mem keyed member).resolves symbol shown
    cases found.symm.trans resolves
    have knows := (known r.name).mp (List.mem_map_of_mem member)
    rw [unknown] at knows
    cases knows

/-- Binds two symbols to a name and rebinds the first of them, and leaves a symbol behind whose
function is forgotten. -/
def shuffle : Routine Unit := do
  Routine.addFunction (some "a") "g" (.done ())
  Routine.addFunction (some "b") "g" (.done ())
  Routine.addFunction (some "c") "gone" (.done ())
  Routine.addFunction (some "a") "f" (.done ())
  let _ ← Routine.ask (.forgetFunction "gone")

def shuffled : Machine where
  functions := ⟨[("g", .done ()), ("f", .done ())]⟩
  operators := ⟨[("a", "f"), ("b", "g"), ("c", "gone")]⟩

theorem reachable_shuffled : Reachable shuffled := by
  have settles : Settles (perform · shuffle) {} (.ok ()) shuffled := ⟨0, rfl⟩
  exact .settled (.new false) settles

def describing (name : String) (descriptions : List (String × String)) : Plugin where
  name := name
  functions := ⟨descriptions.map fun e => (e.1, ⟨none, some e.2, .done ()⟩)⟩

/-- The empty description of the second plugin does not replace the one of the first. -/
theorem function_list_is_faithful_shuffled :
    functionList shuffled.view (Plugin.descriptions [describing "p" [("g", "first")],
      describing "q" [("g", ""), ("f", "second")]]) = ["  a  f  second", "  b  g  first"] ∧
    ∃ rows : List Row, (rows.map (·.name)).Pairwise Text.Precedes ∧
      (∀ name, name ∈ rows.map (·.name) ↔ shuffled.knows name = true) ∧
      ∀ r ∈ rows, r.symbol? ≠ some "c" := by
  refine ⟨by cbv, ?_⟩
  obtain ⟨rows, -, -, -, ascending, known, -, others, -⟩ :=
    function_list_is_faithful reachable_shuffled [describing "p" [("g", "first")],
      describing "q" [("g", ""), ("f", "second")]]
  exact ⟨rows, ascending, known, others "c" "gone" rfl rfl⟩

end Machine

end Cairn
