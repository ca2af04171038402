import Cairn.Proofs.Stepping

set_option autoImplicit false

/-!
# Fuel and steps

Fuel and steps agree. An outcome with fuel is what the steps deliver, whatever waits for it, and
running out of fuel means that there are at least as many steps as there was fuel. So an outcome
does not depend on the fuel that was given, and every run that ends has enough fuel somewhere.
-/

namespace Cairn

/-- An action comes to a result when it has enough fuel. -/
def Settles {α : Type} (action : Nat → Action α) (m : Machine) (result : Except Fault α)
    (m' : Machine) : Prop :=
  ∃ fuel, action fuel m = .settled result m'

/-- Goes on from a result or from a failure. -/
def Outcome.andThen {α β : Type} (o : Outcome α)
    (later : Except Fault α → Machine → Outcome β) : Outcome β :=
  match o with
  | .done a m => later (.ok a) m
  | .failed fault m => later (.error fault) m
  | .exhausted => .exhausted

namespace Configuration

variable {α β : Type} {n k : Nat} {c c' : Configuration} {m : Machine}
  {exec : Value → Action Unit}

/-- An outcome as seen from a configuration: it comes to the result, or it goes on for at least
`n` steps. -/
def Delivers (n : Nat) (c : Configuration) (deliver : Except Fault α → Machine → Configuration) :
    Outcome α → Prop
  | .done a m => Reaches c (deliver (.ok a) m)
  | .failed fault m => Reaches c (deliver (.error fault) m)
  | .exhausted => Lasts n c

/-- An outcome of some work on a machine, whatever waits for it. -/
def Agrees (n : Nat) (work : Work α) (m : Machine) (o : Outcome α) : Prop :=
  ∀ frames, Delivers n ⟨work, frames, m⟩ (ending frames) o

section Delivering

variable {deliver : Except Fault α → Machine → Configuration} {o : Outcome α}

theorem Delivers.of_reaches (reached : Reaches c c') (delivers : Delivers n c' deliver o) :
    Delivers n c deliver o := by
  cases o with
  | done a m => exact reached.trans delivers
  | failed fault m => exact reached.trans delivers
  | exhausted => exact Lasts.of_reaches reached delivers

theorem Delivers.of_le (le : n ≤ k) (delivers : Delivers k c deliver o) :
    Delivers n c deliver o := by
  cases o with
  | done a m => exact delivers
  | failed fault m => exact delivers
  | exhausted => exact Lasts.of_le le delivers

theorem Delivers.succ (stepped : c.step = some c') (delivers : Delivers n c' deliver o) :
    Delivers (n + 1) c deliver o := by
  cases o with
  | done a m => exact .head stepped delivers
  | failed fault m => exact .head stepped delivers
  | exhausted => exact .head stepped delivers

theorem Delivers.head (stepped : c.step = some c') (delivers : Delivers n c' deliver o) :
    Delivers n c deliver o :=
  (delivers.succ stepped).of_le (Nat.le_succ n)

/-- A part that delivers to a frame, and the frame that passes the result on. -/
theorem Delivers.resumed {frames : Frames α}
    (resumes : ∀ result m, (ending frames result m).step = some (deliver result m))
    (delivers : Delivers n c (ending frames) o) : Delivers n c deliver o := by
  cases o with
  | done a m => exact delivers.tail (resumes (.ok a) m)
  | failed fault m => exact delivers.tail (resumes (.error fault) m)
  | exhausted => exact delivers

theorem Delivers.mapFault {f : Fault → Fault}
    (delivers : Delivers n c (fun result => deliver (result.mapError f)) o) :
    Delivers n c deliver (o.mapFault f) := by
  cases o with
  | done a m => exact delivers
  | failed fault m => exact delivers
  | exhausted => exact delivers

/-- A part and what goes on from its result. -/
theorem Delivers.andThen {deliver' : Except Fault β → Machine → Configuration}
    {later : Except Fault α → Machine → Outcome β} (delivers : Delivers n c deliver o)
    (goesOn : ∀ result m, Delivers n (deliver result m) deliver' (later result m)) :
    Delivers n c deliver' (o.andThen later) := by
  cases o with
  | done a m => exact .of_reaches delivers (goesOn (.ok a) m)
  | failed fault m => exact .of_reaches delivers (goesOn (.error fault) m)
  | exhausted => exact delivers

end Delivering

theorem evaluateWith_agrees (runs : ∀ value m, Agrees n (.value value) m (exec value m))
    (tokens : List Value) (m : Machine) :
    Agrees n (.tokens tokens) m (Machine.evaluateWith exec tokens m) := by
  intro frames
  fun_induction Machine.evaluateWith exec tokens m with
  | case1 m => exact .head rfl (.refl _)
  | case2 symbol rest m token absent =>
    refine .head ?_ (.refl _)
    simp [step, absent, ending, Routine.ofExcept, token]
  | case3 symbol rest m name present _ m' ran inductionHypothesis =>
    have delivers := runs (.function name) m (.operator symbol rest frames)
    rw [ran] at delivers
    exact .head (step_operator present rest frames)
      (.of_reaches delivers (.head rfl inductionHypothesis))
  | case4 symbol rest m token name present fault m' ran =>
    have delivers := runs (.function name) m (.operator symbol rest frames)
    rw [ran] at delivers
    exact .head (step_operator present rest frames) (delivers.tail rfl)
  | case5 symbol rest m name present ran =>
    have delivers := runs (.function name) m (.operator symbol rest frames)
    rw [ran] at delivers
    exact .head (step_operator present rest frames) delivers
  | case6 value rest m literal inductionHypothesis =>
    exact .head (step_literal literal rest frames m) inductionHypothesis

theorem iterate_delivers {round : Routine Bool} {action : Action Bool}
    (runs : ∀ m, Agrees n (.routine round) m (action m))
    (next : Except Fault Unit → Routine α) (frames : Frames α) (le : k ≤ n) (m : Machine) :
    Delivers k ⟨.routine round, .round round next frames, m⟩
      (fun result m' => ⟨.routine (next result), frames, m'⟩) (Machine.iterate action k m) := by
  induction k generalizing m with
  | zero => exact Lasts.zero _
  | succ k inductionHypothesis =>
    have delivers := runs m (.round round next frames)
    rw [Machine.iterate]
    split
    next m' ran =>
      rw [ran] at delivers
      exact .of_reaches delivers (.succ rfl (inductionHypothesis (Nat.le_of_succ_le le) m'))
    next m' ran =>
      rw [ran] at delivers
      exact delivers.tail rfl
    next fault m' ran =>
      rw [ran] at delivers
      exact delivers.tail rfl
    next ran =>
      rw [ran] at delivers
      exact Lasts.of_le le delivers

theorem respond_delivers (runs : ∀ value m, Agrees n (.value value) m (exec value m))
    (request : Request) (next : Except Fault request.Reply → Routine α) (frames : Frames α)
    (m : Machine) :
    Delivers n ⟨.routine (.perform request next), frames, m⟩
      (fun result m' => ⟨.routine (next result), frames, m'⟩) (Machine.respond exec request m) := by
  cases nested : request.nests with
  | false =>
    obtain ⟨result, m', answered, stepped⟩ := step_perform_local nested exec next frames m
    rw [answered]
    cases result with
    | ok reply => exact .head stepped (.refl _)
    | error fault => exact .head stepped (.refl _)
  | true =>
    cases request with
    | evaluate tokens =>
      have delivers := evaluateWith_agrees runs tokens m (.evaluate next frames)
      exact .head rfl (delivers.resumed fun result m' => by cases result <;> rfl)
    | invoke value =>
      have delivers := runs value m (.invoke next frames)
      exact .head rfl (.mapFault (delivers.resumed fun result m' => by cases result <;> rfl))
    | _ => exact absurd nested (by simp [Request.nests])

theorem runWith_perform (exec : Value → Action Unit) (n : Nat) (request : Request)
    (next : Except Fault request.Reply → Routine α) (m : Machine) :
    Machine.runWith exec n (.perform request next) m =
      (Machine.respond exec request m).andThen
        fun result => Machine.runWith exec n (next result) := by
  rw [Machine.runWith]
  cases Machine.respond exec request m <;> rfl

theorem runWith_iterate (exec : Value → Action Unit) (n : Nat) (round : Routine Bool)
    (next : Except Fault Unit → Routine α) (m : Machine) :
    Machine.runWith exec n (.iterate round next) m =
      (Machine.iterate (Machine.runWith exec n round) n m).andThen
        fun result => Machine.runWith exec n (next result) := by
  rw [Machine.runWith]
  cases Machine.iterate (Machine.runWith exec n round) n m <;> rfl

theorem runWith_agrees (runs : ∀ value m, Agrees n (.value value) m (exec value m))
    (routine : Routine α) (m : Machine) :
    Agrees n (.routine routine) m (Machine.runWith exec n routine m) := by
  induction routine generalizing m with
  | done a => exact fun frames => .refl _
  | fail fault => exact fun frames => .refl _
  | perform request next inductionHypothesis =>
    intro frames
    rw [runWith_perform]
    exact (respond_delivers runs request next frames m).andThen
      fun result m' => inductionHypothesis result m' frames
  | define name body next _ inductionHypothesis =>
    exact fun frames => .head rfl (inductionHypothesis (m.define name body) frames)
  | iterate round next roundHypothesis inductionHypothesis =>
    intro frames
    rw [runWith_iterate]
    have delivers := iterate_delivers roundHypothesis next frames (Nat.le_refl n) m
    exact .head rfl (delivers.andThen fun result m' => inductionHypothesis result m' frames)

theorem callWith_agrees (runs : ∀ value m, Agrees n (.value value) m (exec value m))
    (name : String) (m : Machine) :
    Agrees (n + 1) (.value (.function name)) m (Machine.callWith exec n name m) := by
  intro frames
  rw [Machine.callWith]
  split
  next absent =>
    refine .head ?_ (.refl _)
    simp [step, absent, ending, Routine.ofExcept]
  next body registered =>
    have delivers :=
      runWith_agrees runs body (m.trace ("call " ++ name)) (.call name m.stack frames)
    refine .succ (step_call registered frames) ?_
    cases ran : Machine.runWith exec n body (m.trace ("call " ++ name)) with
    | done a m' =>
      rw [ran] at delivers
      exact delivers.tail rfl
    | failed fault m' =>
      rw [ran] at delivers
      exact delivers.tail rfl
    | exhausted =>
      rw [ran] at delivers
      exact delivers

theorem exec_agrees (fuel : Nat) (value : Value) (m : Machine) :
    Agrees fuel (.value value) m (Machine.exec fuel value m) := by
  induction fuel generalizing value m with
  | zero => exact fun frames => Lasts.zero _
  | succ fuel inductionHypothesis =>
    intro frames
    cases value with
    | function name => exact callWith_agrees inductionHypothesis name m frames
    | block body =>
      have delivers := evaluateWith_agrees inductionHypothesis body m (.block frames)
      exact .succ rfl (.mapFault (delivers.resumed fun result m' => by cases result <;> rfl))
    | _ => exact .head rfl (.refl _)

theorem evaluate_agrees (fuel : Nat) (tokens : List Value) (m : Machine) :
    Agrees fuel (.tokens tokens) m (Machine.evaluate fuel tokens m) :=
  evaluateWith_agrees (exec_agrees fuel) tokens m

theorem perform_agrees (fuel : Nat) (routine : Routine α) (m : Machine) :
    Agrees fuel (.routine routine) m (Machine.perform fuel routine m) :=
  runWith_agrees (exec_agrees fuel) routine m

theorem ending_injective {result result' : Except Fault α} {m m' : Machine}
    (same : ending .top result m = ending .top result' m') : result = result' ∧ m = m' := by
  cases result <;> cases result' <;> simp_all [ending, Routine.ofExcept]

@[simp]
theorem step_ending_top (result : Except Fault α) (m : Machine) :
    (ending .top result m).step = none := by
  cases result <;> rfl

section Settling

variable {work : Work α} {action : Nat → Action α} {m' m'' : Machine}
  {result result' : Except Fault α}

theorem Agrees.reaches (agrees : Agrees n work m (.settled result m')) (frames : Frames α) :
    Reaches ⟨work, frames, m⟩ (ending frames result m') := by
  cases result with
  | ok a => exact agrees frames
  | error fault => exact agrees frames

/-- A run that comes to an end comes to the same end with every larger amount of fuel. -/
theorem eventually_settled (agrees : ∀ fuel, Agrees fuel work m (action fuel m))
    (reached : Reaches ⟨work, .top, m⟩ (ending .top result m')) :
    ∃ least, ∀ fuel, least ≤ fuel → action fuel m = .settled result m' := by
  obtain ⟨steps, taken⟩ := reached
  refine ⟨steps + 1, fun fuel enough => ?_⟩
  -- Any other end would be a second end of the same run; no end would mean too many steps.
  have agreed : ∀ result' final, action fuel m = .settled result' final →
      action fuel m = .settled result m' := by
    intro result' final ran
    have reached' := Agrees.reaches (ran ▸ agrees fuel) .top
    obtain ⟨rfl, rfl⟩ := ending_injective
      (Reaches.end_unique reached' (step_ending_top _ _) ⟨steps, taken⟩ (step_ending_top _ _))
    exact ran
  cases ran : action fuel m with
  | done a final => exact ran ▸ agreed (.ok a) final ran
  | failed fault final => exact ran ▸ agreed (.error fault) final ran
  | exhausted =>
    have lasts := agrees fuel .top
    rw [ran] at lasts
    exact absurd (Lasts.of_le enough lasts) (not_lasts_of_ended taken (step_ending_top _ _))

/-- What an action settles on is what the steps of its work end in. -/
theorem settles_iff_reaches (agrees : ∀ fuel, Agrees fuel work m (action fuel m)) :
    Settles action m result m' ↔ Reaches ⟨work, .top, m⟩ (ending .top result m') := by
  constructor
  · rintro ⟨fuel, ran⟩
    exact Agrees.reaches (ran ▸ agrees fuel) .top
  · intro reached
    obtain ⟨least, settled⟩ := eventually_settled agrees reached
    exact ⟨least, settled least (Nat.le_refl least)⟩

end Settling

end Configuration

namespace Settles

open Cairn.Configuration

variable {α : Type} {work : Work α} {action : Nat → Action α} {m m' m'' : Machine}
  {result result' : Except Fault α}

theorem reaches (agrees : ∀ fuel, Agrees fuel work m (action fuel m))
    (settles : Settles action m result m') (frames : Frames α) :
    Reaches ⟨work, frames, m⟩ (ending frames result m') := by
  obtain ⟨fuel, ran⟩ := settles
  exact Agrees.reaches (ran ▸ agrees fuel) frames

theorem eventually (agrees : ∀ fuel, Agrees fuel work m (action fuel m))
    (settles : Settles action m result m') :
    ∃ least, ∀ fuel, least ≤ fuel → action fuel m = .settled result m' :=
  eventually_settled agrees ((settles_iff_reaches agrees).mp settles)

theorem unique (agrees : ∀ fuel, Agrees fuel work m (action fuel m))
    (first : Settles action m result m') (second : Settles action m result' m'') :
    result = result' ∧ m' = m'' :=
  ending_injective (Reaches.end_unique (first.reaches agrees .top) (step_ending_top result m')
    (second.reaches agrees .top) (step_ending_top result' m''))

/-- Two actions one after the other: the first fails, or the second goes on from its result. -/
theorem seq_iff {β : Type} {first : Nat → Action β} {second : β → Nat → Action α}
    {firstWork : Work β} {secondWork : β → Work α}
    (splits : ∀ fuel, action fuel m = (first fuel m).bind fun b => second b fuel)
    (firstAgrees : ∀ fuel, Agrees fuel firstWork m (first fuel m))
    (secondAgrees : ∀ b middle fuel, Agrees fuel (secondWork b) middle (second b fuel middle)) :
    Settles action m result m' ↔
      (∃ fault, result = .error fault ∧ Settles first m (.error fault) m') ∨
        ∃ b middle, Settles first m (.ok b) middle ∧ Settles (second b) middle result m' := by
  constructor
  · rintro ⟨fuel, ran⟩
    rw [splits] at ran
    cases done : first fuel m with
    | done b middle =>
      rw [done] at ran
      exact .inr ⟨b, middle, ⟨fuel, done⟩, fuel, ran⟩
    | failed fault last =>
      rw [done] at ran
      obtain ⟨rfl, rfl⟩ := Outcome.failed_eq_settled.mp ran
      exact .inl ⟨fault, rfl, fuel, done⟩
    | exhausted =>
      rw [done] at ran
      cases result <;> cases ran
  · rintro (⟨fault, rfl, fuel, ran⟩ | ⟨b, middle, done, later⟩)
    · refine ⟨fuel, ?_⟩
      rw [splits, ran]
      rfl
    · -- Each part has its own fuel; the larger of the two is enough for both.
      obtain ⟨least, done⟩ := done.eventually firstAgrees
      obtain ⟨least', later⟩ := later.eventually (secondAgrees b middle)
      refine ⟨max least least', ?_⟩
      rw [splits, done _ (Nat.le_max_left ..)]
      exact later _ (Nat.le_max_right ..)

end Settles

end Cairn
