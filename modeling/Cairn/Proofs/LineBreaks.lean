import Cairn.Display
import Cairn.Fault
import Cairn.Proofs.Documents
import Cairn.Proofs.SignedZeros
import Mathlib

set_option autoImplicit false

/-!
# Line breaks

A stack in simple form is one text, and so is each line of the report on a failure. Strings are
quoted there, and numbers and fixed wording hold no line feed. Names and symbols are copied as they
are, and so is the source of a block, with the strings in it. A line feed in one of those breaks the
line, and nothing else does.
-/

namespace Cairn

namespace Text

def HasBreak (s : String) : Prop := '\n' ∈ s.toList

instance (s : String) : Decidable (HasBreak s) := inferInstanceAs (Decidable ('\n' ∈ s.toList))

@[simp]
theorem hasBreak_append {s t : String} : HasBreak (s ++ t) ↔ HasBreak s ∨ HasBreak t := by
  simp [HasBreak]

/-- Between texts of one line a text breaks where it does on its own. -/
theorem hasBreak_between {front back : String} (opens : ¬ HasBreak front)
    (closes : ¬ HasBreak back) (s : String) : HasBreak (front ++ s ++ back) ↔ HasBreak s := by
  rw [hasBreak_append, hasBreak_append, or_iff_right opens, or_iff_left closes]

theorem not_hasBreak_of_printable {s : String} (printable : Json.Printable s.toList) :
    ¬ HasBreak s := fun member => absurd (printable _ member) (by decide)

@[simp]
theorem not_hasBreak_quoted (s : String) : ¬ HasBreak (quoted s) :=
  not_hasBreak_of_printable (Json.printable_quoted s)

/-- Joined by a blank, texts break where one of them does. -/
theorem hasBreak_intercalate (texts : List String) :
    HasBreak (" ".intercalate texts) ↔ ∃ s ∈ texts, HasBreak s := by
  have blank : ¬ HasBreak " " := by simp [HasBreak]
  induction texts with
  | nil => simp [HasBreak]
  | cons s texts inductionHypothesis =>
    cases texts with
    | nil => simp
    | cons t texts =>
      rw [String.intercalate_cons_cons, hasBreak_append, hasBreak_append, or_iff_left blank,
        List.exists_mem_cons_iff]
      exact or_congr_right inductionHypothesis

end Text

open Text

namespace Number

@[simp]
theorem not_hasBreak_exactText (x : Float) : ¬ HasBreak (exactText x) := by
  rcases exactText_shape x with ⟨_, text⟩ | ⟨negative, _, text⟩ | ⟨s, negative, text, _⟩
  · rw [text]
    decide
  · rw [text]
    cases negative <;> decide
  · intro member
    rw [HasBreak, text, List.mem_append] at member
    rcases member with sign | inText
    · cases negative <;> simp at sign
    · rcases Spelling.mem_text inText with digit | equality | equality | equality | equality
      · cases digit
      all_goals cases equality

@[simp]
theorem not_hasBreak_text (x : Float) : ¬ HasBreak (text x) := by
  rw [text_eq_exactText]
  exact not_hasBreak_exactText _

@[simp]
theorem not_hasBreak_source (x : Float) : ¬ HasBreak (source x) := by
  unfold source
  dsimp only
  split
  next => exact not_hasBreak_exactText x
  next =>
    rw [hasBreak_between (by simp [HasBreak]) (by simp [HasBreak])]
    exact not_hasBreak_exactText x

end Number

namespace Value

/-- Somewhere in the source of the value stands a line feed: in a string, a name or a symbol, at any
depth. -/
inductive SourceBreaks : Value → Prop
  | string {s : String} : HasBreak s → SourceBreaks (.string s)
  | function {name : String} : HasBreak name → SourceBreaks (.function name)
  | operator {symbol : String} : HasBreak symbol → SourceBreaks (.operator symbol)
  | block {body : List Value} {v : Value} :
      v ∈ body → SourceBreaks v → SourceBreaks (.block body)

/-- A line feed stands in what the rendering of the value copies: a name, a symbol or the source of
a block. -/
inductive Breaks : Value → Prop
  | function {name : String} : HasBreak name → Breaks (.function name)
  | operator {symbol : String} : HasBreak symbol → Breaks (.operator symbol)
  | block {body : List Value} : SourceBreaks (.block body) → Breaks (.block body)

theorem sourceBreaks_block_iff {body : List Value} :
    SourceBreaks (.block body) ↔ ∃ v ∈ body, v.SourceBreaks := by
  constructor
  · rintro ⟨⟩
    exact ⟨_, ‹_›, ‹_›⟩
  · rintro ⟨v, member, breaks⟩
    exact .block member breaks

mutual

theorem hasBreak_source_iff (v : Value) : HasBreak v.source ↔ v.SourceBreaks := by
  cases v with
  | string s =>
    rw [source, hasBreak_between (by simp [HasBreak]) (by simp [HasBreak])]
    exact ⟨.string, fun | .string breaks => breaks⟩
  | number x =>
    simp only [source, Number.not_hasBreak_source, false_iff]
    nofun
  | function name =>
    rw [source, hasBreak_between (by simp [HasBreak]) (by simp [HasBreak])]
    exact ⟨.function, fun | .function breaks => breaks⟩
  | block body =>
    rw [source, hasBreak_between (by simp [HasBreak]) (by simp [HasBreak]), hasBreak_intercalate,
      exists_hasBreak_sources_iff body, sourceBreaks_block_iff]
  | operator symbol => exact ⟨.operator, fun | .operator breaks => breaks⟩
  | boolean b =>
    have word : ¬ HasBreak (source (.boolean b)) := by cases b <;> decide
    exact iff_of_false word nofun

theorem exists_hasBreak_sources_iff (body : List Value) :
    (∃ s ∈ sources body, HasBreak s) ↔ ∃ v ∈ body, v.SourceBreaks := by
  cases body with
  | nil => simp [sources]
  | cons v body =>
    rw [sources, List.exists_mem_cons_iff, List.exists_mem_cons_iff, hasBreak_source_iff v,
      exists_hasBreak_sources_iff body]

end

theorem hasBreak_render_iff (v : Value) : HasBreak v.render ↔ v.Breaks := by
  cases v with
  | string s =>
    simp only [render, not_hasBreak_quoted, false_iff]
    nofun
  | number x =>
    simp only [render, Number.not_hasBreak_text, false_iff]
    nofun
  | function name =>
    rw [render, hasBreak_between (by simp [HasBreak]) (by simp [HasBreak])]
    exact ⟨.function, fun | .function breaks => breaks⟩
  | block body =>
    rw [render, hasBreak_between (by simp [HasBreak]) (by simp [HasBreak]), hasBreak_source_iff]
    exact ⟨.block, fun | .block breaks => breaks⟩
  | operator symbol =>
    rw [render, hasBreak_between (by simp [HasBreak]) (by simp [HasBreak])]
    exact ⟨.operator, fun | .operator breaks => breaks⟩
  | boolean b =>
    have word : ¬ HasBreak (render (.boolean b)) := by cases b <;> decide
    exact iff_of_false word nofun

end Value

theorem hasBreak_renderAll_iff (values : List Value) :
    HasBreak (renderAll values) ↔ ∃ v ∈ values, v.Breaks := by
  simp [renderAll, hasBreak_intercalate, Value.hasBreak_render_iff]

/-- A line feed stands in what the message of the cause copies: a name, or a value that is not what
was asked for. -/
inductive Cause.Breaks : Cause → Prop
  | unknownFunction {name : String} : HasBreak name → Breaks (.unknownFunction name)
  | expected {expected actual : String} : HasBreak expected → Breaks (.wrongType expected actual)
  | actual {expected actual : String} : HasBreak actual → Breaks (.wrongType expected actual)
  | notBoolean {v : Value} : v.Breaks → Breaks (.notBoolean v)

theorem Cause.hasBreak_message_iff (c : Cause) : HasBreak c.message ↔ c.Breaks := by
  have title : ¬ HasBreak (c.title ++ ": ") := by cases c <;> simp [HasBreak, Cause.title]
  rw [message, hasBreak_append, or_iff_right title, detail.eq_def]
  cases c with
  | unknownFunction name =>
    have words : ¬ HasBreak "unknown function " := by simp [HasBreak]
    simp only [hasBreak_append, words, false_or]
    exact ⟨.unknownFunction, fun | .unknownFunction breaks => breaks⟩
  | wrongType expected actual =>
    have words : ¬ HasBreak "expected " := by simp [HasBreak]
    have found : ¬ HasBreak ", found " := by simp [HasBreak]
    simp only [hasBreak_append, words, found, false_or, or_false]
    constructor
    · rintro (breaks | breaks)
      · exact .expected breaks
      · exact .actual breaks
    · rintro (_ | breaks | breaks | _)
      · exact .inl breaks
      · exact .inr breaks
  | badNumber text =>
    have words : ¬ HasBreak "invalid number literal " := by simp [HasBreak]
    simp only [hasBreak_append, words, not_hasBreak_quoted, or_self, false_iff]
    nofun
  | outOfBounds index length =>
    have words : ¬ HasBreak "index " := by simp [HasBreak]
    have place : ¬ HasBreak " out of bounds for stack of length " := by simp [HasBreak]
    simp only [hasBreak_append, words, place, Number.not_hasBreak_text, or_self, false_iff]
    nofun
  | tooFewArguments => exact iff_of_false (by simp [HasBreak]) nofun
  | notBoolean v =>
    have words : ¬ HasBreak " is not a boolean" := by simp [HasBreak]
    simp only [hasBreak_append, words, or_false, v.hasBreak_render_iff]
    exact ⟨.notBoolean, fun | .notBoolean breaks => breaks⟩

theorem hasBreak_evaluation_message_iff (cause : Cause) (stack : List Value)
    (token : Option Value) :
    HasBreak (Fault.evaluation cause stack token).message ↔
      cause.Breaks ∨ ∃ v ∈ token, v.Breaks := by
  cases token with
  | none =>
    rw [Fault.message.eq_def]
    simp [cause.hasBreak_message_iff]
  | some v =>
    have opening : ¬ HasBreak " (in " := by simp [HasBreak]
    have closing : ¬ HasBreak ")" := by simp [HasBreak]
    rw [Fault.message.eq_def]
    simp only [hasBreak_append, opening, closing, or_false,
      cause.hasBreak_message_iff, v.hasBreak_render_iff, Option.mem_some_iff, exists_eq_left']

/-- The simple form of a stack, and a report on a failure, break into several lines exactly at the
line feeds in names, in symbols and in sources of blocks. -/
theorem simple_output_breaks_iff (view : View) (width : Nat) (cause : Cause) (stack : List Value)
    (token : Option Value) :
    (∃ line, view.format .simple width = [line] ∧
      (HasBreak line ↔ ∃ v ∈ view.stack, v.Breaks)) ∧
    ((∃ line ∈ (Fault.evaluation cause stack token).report, HasBreak line) ↔
      cause.Breaks ∨ (∃ v ∈ token, v.Breaks) ∨ ∃ v ∈ stack, v.Breaks) := by
  constructor
  · refine ⟨renderAll view.stack.reverse, rfl, ?_⟩
    simp [hasBreak_renderAll_iff]
  · have label : ¬ HasBreak "error: " := by simp [HasBreak]
    have stackLabel : ¬ HasBreak "stack at failure: " := by simp [HasBreak]
    cases stack with
    | nil =>
      simp [Fault.report, label, hasBreak_evaluation_message_iff]
    | cons top below =>
      simp only [Fault.report, List.mem_cons, List.not_mem_nil, or_false, exists_eq_or_imp,
        exists_eq_left, hasBreak_append, label, stackLabel, false_or,
        hasBreak_evaluation_message_iff, hasBreak_renderAll_iff, List.mem_reverse, or_assoc]

/-- A name with a line feed, as the reader takes it, breaks the one line of a stack and the report
on a failure. -/
theorem simple_output_breaks_at_name :
    read (fun _ => false) "[a\nb]" = .ok ⟨5, [.function "a\nb"]⟩ ∧
    View.format ⟨[.function "a\nb"], [], .empty⟩ .simple 80 = ["<fn a\nb>"] ∧
    HasBreak "<fn a\nb>" ∧
    ∃ line ∈ (Fault.evaluation (.unknownFunction "a\nb") [] none).report, HasBreak line :=
  ⟨rfl, rfl, by decide, _, List.mem_singleton_self _, by decide⟩

end Cairn
