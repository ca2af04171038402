import Cairn.Core.Library

set_option autoImplicit false

/-!
# Disciplines

Routines that pass every failure on and otherwise keep to a discipline. A discipline says which
values may be handled, what may be asked for, raised and registered; a value that comes from the
stack is one that may be handled. Every core word obeys every discipline that leaves it its
arguments, its results and its complaints.
-/

namespace Cairn

/-- What a routine may do. -/
structure Discipline where
  /-- The values that a routine may come by. -/
  Holds : Value → Prop
  Asks : Request → Prop
  Raises : Fault → Prop
  /-- The functions that a routine may register, besides that they obey. -/
  Registers : Routine Unit → Prop := fun _ => True

/-- What a successful answer brings in. -/
def Request.Brings (holds : Value → Prop) : (request : Request) → request.Reply → Prop
  | .pop, v => holds v
  | .valueAt _, v => holds v
  | _, _ => True

theorem Request.brings_true (request : Request) (reply : request.Reply) :
    request.Brings (fun _ => True) reply := by
  cases request <;> trivial

/-- A discipline that leaves to the core words what they need. -/
class Discipline.Ample (d : Discipline) : Prop where
  string : ∀ s, d.Holds (.string s)
  number : ∀ x, d.Holds (.number x)
  boolean : ∀ b, d.Holds (.boolean b)
  pop : d.Asks .pop
  valueAt : ∀ index, d.Asks (.valueAt index)
  push : ∀ v, d.Holds v → d.Asks (.push v)
  storeAt : ∀ index v, d.Holds v → d.Asks (.storeAt index v)
  invoke : ∀ v, d.Holds v → d.Asks (.invoke v)
  emit : ∀ text, d.Asks (.emit text)
  assignOperator : ∀ symbol name, symbol.length = 1 → d.Asks (.assignOperator symbol name)
  language : ∀ cause, d.Raises (.language cause)
  registers : ∀ body, d.Holds (.block body) → d.Registers (Core.runBlock body)

attribute [simp] Discipline.Ample.string Discipline.Ample.number Discipline.Ample.boolean
  Discipline.Ample.pop Discipline.Ample.valueAt Discipline.Ample.emit Discipline.Ample.language

namespace Routine

variable {α β γ : Type} {d : Discipline}

theorem bind_done (r : Routine α) : (r >>= fun a => .done a) = r := by
  induction r with
  | done a => rfl
  | fail fault => rfl
  | perform request next inductionHypothesis =>
    exact congrArg (Routine.perform request) (funext inductionHypothesis)
  | define name body next _ inductionHypothesis =>
    exact congrArg (Routine.define name body) inductionHypothesis
  | iterate round next _ inductionHypothesis =>
    exact congrArg (Routine.iterate round) (funext inductionHypothesis)

theorem bind_bind (r : Routine α) (f : α → Routine β) (g : β → Routine γ) :
    (r >>= f >>= g) = (r >>= fun a => f a >>= g) := by
  induction r with
  | done a => rfl
  | fail fault => rfl
  | perform request next inductionHypothesis =>
    exact congrArg (Routine.perform request) (funext fun reply => inductionHypothesis reply f)
  | define name body next _ inductionHypothesis =>
    exact congrArg (Routine.define name body) (inductionHypothesis f)
  | iterate round next _ inductionHypothesis =>
    exact congrArg (Routine.iterate round) (funext fun reply => inductionHypothesis reply f)

instance : LawfulMonad Routine :=
  LawfulMonad.mk' _ (fun r => bind_done r) (fun _ _ => rfl) (fun r f g => bind_bind r f g)

def Obeys (d : Discipline) : {α : Type} → Routine α → Prop
  | _, .done _ => True
  | _, .fail fault => d.Raises fault
  | _, .perform request next =>
    d.Asks request ∧ (∀ fault, next (.error fault) = .fail fault) ∧
      ∀ reply, request.Brings d.Holds reply → (next (.ok reply)).Obeys d
  | _, .define _ body next => d.Registers body ∧ body.Obeys d ∧ next.Obeys d
  | _, .iterate round next =>
    round.Obeys d ∧ (∀ fault, next (.error fault) = .fail fault) ∧ (next (.ok ())).Obeys d

theorem Obeys.bind {r : Routine α} {f : α → Routine β} (obeys : r.Obeys d)
    (later : ∀ a, (f a).Obeys d) : (r >>= f).Obeys d := by
  induction r with
  | done a => exact later a
  | fail fault => exact obeys
  | perform request next inductionHypothesis =>
    obtain ⟨asks, passes, goesOn⟩ := obeys
    refine ⟨asks, fun fault => ?_, fun reply brings => ?_⟩
    · change (next (.error fault)).bind f = .fail fault
      rw [passes]
      rfl
    · exact inductionHypothesis (.ok reply) (goesOn reply brings) later
  | define name body next _ inductionHypothesis =>
    obtain ⟨registers, bodyObeys, goesOn⟩ := obeys
    exact ⟨registers, bodyObeys, inductionHypothesis goesOn later⟩
  | iterate round next _ inductionHypothesis =>
    obtain ⟨roundObeys, passes, goesOn⟩ := obeys
    refine ⟨roundObeys, fun fault => ?_, ?_⟩
    · change (next (.error fault)).bind f = .fail fault
      rw [passes]
      rfl
    · exact inductionHypothesis (.ok ()) goesOn later

theorem obeys_ask_bind {request : Request} {f : request.Reply → Routine α} :
    (ask request >>= f).Obeys d ↔
      d.Asks request ∧ ∀ reply, request.Brings d.Holds reply → (f reply).Obeys d := by
  constructor
  · rintro ⟨asks, _, goesOn⟩
    exact ⟨asks, goesOn⟩
  · rintro ⟨asks, goesOn⟩
    exact ⟨asks, fun _ => rfl, goesOn⟩

theorem obeys_ask {request : Request} : (ask request).Obeys d ↔ d.Asks request := by
  constructor
  · exact And.left
  · intro asks
    exact ⟨asks, fun _ => rfl, fun _ _ => trivial⟩

@[simp] theorem obeys_clear : clear.Obeys d ↔ d.Asks .clear := obeys_ask

theorem obeys_loop {round : Routine Bool} (obeys : round.Obeys d) : (loop round).Obeys d :=
  ⟨obeys, fun _ => rfl, trivial⟩

section Ample

variable [d.Ample]

@[simp] theorem obeys_failWith (cause : Cause) : (failWith cause : Routine α).Obeys d :=
  Discipline.Ample.language cause

@[simp] theorem obeys_failWith_bind (cause : Cause) (f : α → Routine β) :
    (failWith cause >>= f).Obeys d :=
  Discipline.Ample.language cause

@[simp] theorem obeys_pop_bind {f : Value → Routine α} :
    (pop >>= f).Obeys d ↔ ∀ v, d.Holds v → (f v).Obeys d := by
  rw [pop, obeys_ask_bind]
  simp [Request.Brings]

@[simp] theorem obeys_valueAt_bind {index : Float} {f : Value → Routine α} :
    (valueAt index >>= f).Obeys d ↔ ∀ v, d.Holds v → (f v).Obeys d := by
  rw [valueAt, obeys_ask_bind]
  simp [Request.Brings]

theorem obeys_push {v : Value} (holds : d.Holds v) : (push v).Obeys d :=
  obeys_ask.mpr (Discipline.Ample.push v holds)

theorem obeys_push_bind {v : Value} {f : Unit → Routine α} (holds : d.Holds v)
    (later : (f ()).Obeys d) : (push v >>= f).Obeys d :=
  obeys_ask_bind.mpr ⟨Discipline.Ample.push v holds, fun _ _ => later⟩

theorem obeys_storeAt {index : Float} {v : Value} (holds : d.Holds v) :
    (storeAt index v).Obeys d :=
  obeys_ask.mpr (Discipline.Ample.storeAt index v holds)

theorem obeys_invoke {v : Value} (holds : d.Holds v) : (invoke v).Obeys d :=
  obeys_ask.mpr (Discipline.Ample.invoke v holds)

@[simp] theorem obeys_emit (text : String) : (emit text).Obeys d :=
  obeys_ask.mpr (Discipline.Ample.emit text)

theorem obeys_assignOperator {symbol : String} (single : symbol.length = 1) (name : String) :
    (assignOperator symbol name).Obeys d :=
  obeys_ask.mpr (Discipline.Ample.assignOperator symbol name single)

@[simp] theorem obeys_takeNumber_bind {f : Float → Routine α} :
    (takeNumber >>= f).Obeys d ↔ ∀ x, (f x).Obeys d := by
  rw [takeNumber, bind_assoc, obeys_pop_bind]
  constructor
  · intro obeys x
    simpa using obeys (.number x) (by simp)
  · intro obeys v _
    cases v <;> simp [obeys]

@[simp] theorem obeys_takeText_bind {f : String → Routine α} :
    (takeText >>= f).Obeys d ↔ ∀ s, (f s).Obeys d := by
  rw [takeText, bind_assoc, obeys_pop_bind]
  constructor
  · intro obeys s
    simpa using obeys (.string s) (by simp)
  · intro obeys v _
    cases v <;> simp [obeys]

@[simp] theorem obeys_takeBlock_bind {f : List Value → Routine α} :
    (takeBlock >>= f).Obeys d ↔ ∀ body, d.Holds (.block body) → (f body).Obeys d := by
  rw [takeBlock, bind_assoc, obeys_pop_bind]
  constructor
  · intro obeys body holds
    simpa using obeys (.block body) holds
  · intro obeys v holds
    cases v with
    | block body => simpa using obeys body holds
    | _ => simp

@[simp] theorem obeys_takeTruth_bind {f : Bool → Routine α} :
    (takeTruth >>= f).Obeys d ↔ ∀ b, (f b).Obeys d := by
  rw [takeTruth, bind_assoc, obeys_pop_bind]
  constructor
  · intro obeys b
    simpa [Value.truth?] using obeys (.boolean b) (by simp)
  · intro obeys v _
    split <;> simp [obeys]

end Ample

end Routine

namespace Core

open Routine

variable {d : Discipline} [d.Ample] {body : List Value}

theorem obeys_runBlock (holds : d.Holds (.block body)) : (runBlock body).Obeys d :=
  obeys_invoke holds

theorem obeys_repeatBlock (holds : d.Holds (.block body)) (n : Nat) :
    (repeatBlock body n).Obeys d := by
  induction n with
  | zero => trivial
  | succ n inductionHypothesis =>
    exact Obeys.bind (obeys_runBlock holds) fun _ => inductionHypothesis

theorem obeys_binary (op : Float → Float → Float) : (binary op).Obeys d := by
  simp only [binary, obeys_takeNumber_bind]
  exact fun b a => obeys_push (by simp)

theorem obeys_comparison (op : Float → Float → Bool) : (comparison op).Obeys d := by
  simp only [comparison, obeys_takeNumber_bind]
  exact fun b a => obeys_push (by simp)

theorem obeys_logical (op : Bool → Bool → Bool) : (logical op).Obeys d := by
  simp only [logical, obeys_takeTruth_bind]
  exact fun b a => obeys_push (by simp)

theorem obeys_dup : dup.Obeys d := by
  simp only [dup, obeys_pop_bind]
  exact fun a holds => obeys_push_bind holds (obeys_push holds)

theorem obeys_drop : drop.Obeys d := obeys_pop_bind.mpr fun _ _ => trivial

theorem obeys_swap : swap.Obeys d := by
  simp only [swap, obeys_pop_bind]
  exact fun b second a first => obeys_push_bind second (obeys_push first)

theorem obeys_rot : rot.Obeys d := by
  simp only [rot, obeys_pop_bind]
  exact fun c third b second a first =>
    obeys_push_bind second (obeys_push_bind third (obeys_push first))

theorem obeys_size (whole : d.Asks .view) : size.Obeys d := by
  rw [size, depth, bind_assoc, view, obeys_ask_bind]
  exact ⟨whole, fun reply _ => obeys_push (by simp)⟩

theorem obeys_put : put.Obeys d := by
  simp only [put, obeys_takeNumber_bind, obeys_pop_bind]
  exact fun n v holds => obeys_storeAt holds

theorem obeys_whenTrue : whenTrue.Obeys d := by
  simp only [whenTrue, obeys_takeBlock_bind, obeys_takeTruth_bind]
  intro body holds truth
  split
  · exact obeys_runBlock holds
  · trivial

theorem obeys_choose : choose.Obeys d := by
  simp only [choose, obeys_takeBlock_bind, obeys_takeTruth_bind]
  intro otherwise otherwiseHolds chosen chosenHolds truth
  split
  · exact obeys_runBlock chosenHolds
  · exact obeys_runBlock otherwiseHolds

theorem obeys_times : times.Obeys d := by
  simp only [times, obeys_takeBlock_bind, obeys_takeNumber_bind]
  intro body holds x
  split
  next n _ => exact obeys_repeatBlock holds n
  next => exact obeys_loop (Obeys.bind (obeys_runBlock holds) fun _ => trivial)

theorem obeys_whileRound {condition : List Value} (conditionHolds : d.Holds (.block condition))
    (bodyHolds : d.Holds (.block body)) : (whileRound condition body).Obeys d := by
  apply Obeys.bind (obeys_runBlock conditionHolds)
  intro _
  rw [obeys_takeTruth_bind]
  intro truth
  split
  · exact Obeys.bind (obeys_runBlock bodyHolds) fun _ => trivial
  · trivial

theorem obeys_whileTrue : whileTrue.Obeys d := by
  simp only [whileTrue, obeys_takeBlock_bind]
  intro body bodyHolds condition conditionHolds
  exact obeys_loop (obeys_whileRound conditionHolds bodyHolds)

theorem obeys_concat : concat.Obeys d := by
  simp only [concat, obeys_takeText_bind]
  exact fun b a => obeys_push (by simp)

theorem obeys_num : num.Obeys d := by
  simp only [num, obeys_takeText_bind]
  intro text
  split
  · exact obeys_push (by simp)
  · exact obeys_failWith _

theorem obeys_define : define.Obeys d := by
  simp only [define, obeys_takeText_bind, obeys_takeBlock_bind]
  exact fun name body holds =>
    ⟨Discipline.Ample.registers body holds, obeys_runBlock holds, trivial⟩

/-- A symbol is checked before it is assigned. -/
theorem obeys_bindAlias : bindAlias.Obeys d := by
  simp only [bindAlias, obeys_takeText_bind]
  intro symbol name
  split
  next single => exact obeys_assignOperator single name
  next => exact obeys_failWith _

/-- The core words obey a discipline that is ample. Two of them need more than that, since they look
at the stack as a whole. -/
theorem obeys_words : ∀ entry ∈ words, (entry.1 = "size" → d.Asks .view) →
    (entry.1 = "clear" → d.Asks .clear) → entry.2.body.Obeys d := by
  simp +contextual [words, word, plainWord, obeys_binary, obeys_comparison, obeys_logical,
    obeys_dup, obeys_drop, obeys_swap, obeys_rot, obeys_size, obeys_put, obeys_whenTrue,
    obeys_choose, obeys_times, obeys_whileTrue, obeys_concat, obeys_num, obeys_define,
    obeys_bindAlias, neg, copySecond, pick, exec, eq, not, len, str, print, obeys_push,
    obeys_invoke]

end Core

end Cairn
