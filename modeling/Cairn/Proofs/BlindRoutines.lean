import Cairn.Proofs.Disciplines

set_option autoImplicit false

/-!
# Blind routines

Routines that do not read the trace. A blind routine may do anything else that a machine offers:
call, catch failures, trace, and register functions, as long as these are blind too. Every core word
is blind.
-/

namespace Cairn

/-- Every request but the one for the log. -/
def Request.Blind : Request → Prop
  | .log => False
  | _ => True

/-- The discipline of blind routines that pass failures on. -/
def Discipline.blind : Discipline where
  Holds _ := True
  Asks := Request.Blind
  Raises _ := True

instance : Discipline.blind.Ample where
  string _ := trivial
  number _ := trivial
  boolean _ := trivial
  pop := trivial
  valueAt _ := trivial
  push _ _ := trivial
  storeAt _ _ _ := trivial
  invoke _ _ := trivial
  emit _ := trivial
  assignOperator _ _ _ := trivial
  language _ := trivial
  registers _ _ := trivial

namespace Routine

variable {α β : Type}

def Blind : {α : Type} → Routine α → Prop
  | _, .done _ => True
  | _, .fail _ => True
  | _, .perform request next => request.Blind ∧ ∀ result, (next result).Blind
  | _, .define _ body next => body.Blind ∧ next.Blind
  | _, .iterate round next => round.Blind ∧ ∀ result, (next result).Blind

theorem Blind.bind {r : Routine α} {f : α → Routine β} (blind : r.Blind)
    (later : ∀ a, (f a).Blind) : (r >>= f).Blind := by
  induction r with
  | done a => exact later a
  | fail fault => trivial
  | perform request next inductionHypothesis =>
    exact ⟨blind.1, fun result => inductionHypothesis result (blind.2 result) later⟩
  | define name body next _ inductionHypothesis =>
    exact ⟨blind.1, inductionHypothesis blind.2 later⟩
  | iterate round next _ inductionHypothesis =>
    exact ⟨blind.1, fun result => inductionHypothesis result (blind.2 result) later⟩

theorem Blind.attempt {r : Routine α} (blind : r.Blind) : r.attempt.Blind := by
  induction r with
  | done a => trivial
  | fail fault => trivial
  | perform request next inductionHypothesis =>
    exact ⟨blind.1, fun result => inductionHypothesis result (blind.2 result)⟩
  | define name body next _ inductionHypothesis =>
    exact ⟨blind.1, inductionHypothesis blind.2⟩
  | iterate round next _ inductionHypothesis =>
    exact ⟨blind.1, fun result => inductionHypothesis result (blind.2 result)⟩

theorem Obeys.blind {r : Routine α} (obeys : r.Obeys .blind) : r.Blind := by
  induction r with
  | done a => trivial
  | fail fault => trivial
  | perform request next inductionHypothesis =>
    obtain ⟨asks, passes, goesOn⟩ := obeys
    refine ⟨asks, fun result => ?_⟩
    cases result with
    | ok reply =>
      exact inductionHypothesis (.ok reply) (goesOn reply (request.brings_true reply))
    | error fault =>
      rw [passes]
      trivial
  | define name body next bodyHypothesis inductionHypothesis =>
    exact ⟨bodyHypothesis obeys.2.1, inductionHypothesis obeys.2.2⟩
  | iterate round next roundHypothesis inductionHypothesis =>
    obtain ⟨roundObeys, passes, goesOn⟩ := obeys
    refine ⟨roundHypothesis roundObeys, fun result => ?_⟩
    cases result with
    | ok _ => exact inductionHypothesis (.ok ()) goesOn
    | error fault =>
      rw [passes]
      trivial

theorem blind_ofExcept (result : Except Fault α) : (ofExcept result).Blind := by
  cases result <;> trivial

theorem blind_ask {request : Request} : (ask request).Blind ↔ request.Blind :=
  ⟨And.left, fun blind => ⟨blind, blind_ofExcept⟩⟩

theorem blind_ask_bind {request : Request} {f : request.Reply → Routine α} :
    (ask request >>= f).Blind ↔ request.Blind ∧ ∀ reply, (f reply).Blind := by
  constructor
  · rintro ⟨blind, later⟩
    exact ⟨blind, fun reply => later (.ok reply)⟩
  · rintro ⟨blind, later⟩
    exact Blind.bind (blind_ask.mpr blind) later

@[simp] theorem blind_pop_bind {f : Value → Routine α} :
    (pop >>= f).Blind ↔ ∀ v, (f v).Blind := by
  rw [pop, blind_ask_bind]
  simp [Request.Blind]

@[simp] theorem blind_trace (message : String) : (trace message).Blind := blind_ask.mpr trivial

@[simp] theorem blind_invoke (v : Value) : (invoke v).Blind := blind_ask.mpr trivial

theorem blind_addFunction (symbol? : Option String) (name : String) {body : Routine Unit}
    (blind : body.Blind) : (addFunction symbol? name body).Blind := by
  cases symbol? with
  | none => exact ⟨blind, trivial⟩
  | some symbol => exact blind_ask_bind.mpr ⟨trivial, fun _ => ⟨blind, trivial⟩⟩

theorem blind_parse (source : String) : (parse source).Blind := blind_ask.mpr trivial

theorem blind_run (source : String) : (run source).Blind :=
  .bind (blind_parse source) fun _ => blind_ask.mpr trivial

end Routine

namespace Core

open Routine

theorem blind_drop : drop.Blind := obeys_drop.blind

theorem blind_whenTrue : whenTrue.Blind := obeys_whenTrue.blind

theorem blind_bindAlias : bindAlias.Blind := obeys_bindAlias.blind

/-- No core word reads the trace. -/
theorem blind_words : ∀ entry ∈ words, entry.2.body.Blind := by
  intro entry member
  exact (obeys_words entry member (fun _ => trivial) fun _ => trivial).blind

end Core

namespace Plugin

open Routine

/-- The functions of a plugin do not read the trace. -/
def Blind (p : Plugin) : Prop := ∀ e ∈ p.functions.entries, e.2.body.Blind

theorem blind_addAll {entries : List (String × Definition)}
    (blind : ∀ e ∈ entries, e.2.body.Blind) : (addAll entries).Blind := by
  induction entries with
  | nil => trivial
  | cons e rest inductionHypothesis =>
    obtain ⟨first, later⟩ := List.forall_mem_cons.mp blind
    exact .bind (blind_addFunction e.2.symbol? e.1 first) fun _ => inductionHypothesis later

theorem Blind.install {p : Plugin} (blind : p.Blind) : p.install.Blind := by
  apply Routine.Blind.bind (blind_addAll blind)
  intro _
  cases p.prelude? with
  | none => exact blind_trace _
  | some source =>
    dsimp only
    split
    · exact .bind (blind_run source) fun _ => blind_trace _
    · exact blind_trace _

theorem blind_core : Core.plugin.Blind := Core.blind_words

end Plugin

end Cairn
