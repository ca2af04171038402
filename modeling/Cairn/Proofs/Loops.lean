import Cairn.Proofs.Arguments
import Cairn.Proofs.Inlining
import Cairn.Proofs.UnreadLines
import Cairn.Proofs.WholeNumbers

set_option autoImplicit false

/-!
# Loops

The words `while` and `times` run their blocks again and again, each time on the machine that the
last round left. A loop is its rounds, and a round is what the tokens of the blocks do on their own;
the call around them adds nothing when it succeeds, and puts the stack back when it fails.
-/

namespace Cairn.Machine

theorem RolledBack.alike {name : String} {thrown : Fault} {before atThrow after : Machine}
    (rolledBack : RolledBack name thrown before atThrow after) :
    after.Alike { atThrow with stack := before.stack } :=
  ⟨rolledBack.stack, rolledBack.functions, rolledBack.operators, rolledBack.output⟩

open Cairn.Configuration

variable {m middle after last : Machine} {word routine : Routine Unit} {literals : List Value}
  {symbol name : String} {fault : Fault} {c b : List Value}

/-- A word that takes the literals pushed for it and goes on with a routine on the stack below. -/
structure Enters (word : Routine Unit) (literals : List Value) (routine : Routine Unit) :
    Prop where
  plain : Literals literals
  runs : ∀ (exec : Value → Action Unit) (n : Nat) (m : Machine),
    runWith exec n word (m.pushAll literals) = runWith exec n routine m

/-- How a failure leaves an operator: one of the language with the operator and the stack that was
left, any other unchanged. -/
def surfaced (symbol : String) (stack : List Value) (fault : Fault) : Fault :=
  fault.cause?.elim fault (.evaluation · stack (some (.operator symbol)))

theorem surfaced_bareCause (symbol : String) (stack : List Value) (fault : Fault) :
    surfaced symbol stack (bareCause fault) = surfaced symbol stack fault := by
  cases fault <;> rfl

theorem surfaced_voiced (symbol : String) (stack : List Value) (fault : Fault) :
    surfaced symbol stack fault.voiced =
      fault.cause?.elim fault.voiced (.evaluation · stack (some (.operator symbol))) := by
  rw [surfaced, fault.cause?_voiced]

/-- What a block that a word runs fails with, is voiced already. -/
theorem surfaced_of_raised (raised : (bareCause fault).OfInvocation) (symbol : String)
    (stack : List Value) :
    surfaced symbol stack (bareCause fault).voiced = surfaced symbol stack fault := by
  rw [raised.voiced, surfaced_bareCause]

theorem Fails.raised (failure : Fails b m fault after) : (bareCause fault).OfInvocation := by
  obtain ⟨fuel, ran⟩ := failure
  exact (evaluate_fault ran).bareCause

theorem settles_application_iff (plain : Literals literals) {result : Except Fault Unit} :
    Settles (evaluate · (literals ++ [.operator symbol])) m result after ↔
      Settles (evaluate · [.operator symbol]) (m.pushAll literals) result after := by
  have same : ∀ fuel, evaluate fuel (literals ++ [.operator symbol]) m =
      evaluate fuel [.operator symbol] (m.pushAll literals) := by
    intro fuel
    rw [evaluate_append, evaluate_literals plain]
    rfl
  simp only [Settles, same]

theorem settles_trace_iff {α : Type} {routine : Routine α} (blind : m.Blind)
    (readable : routine.Blind) (message : String) {result : Except Fault α} :
    (∃ left, Settles (perform · routine) (m.trace message) result left ∧ left.Alike after) ↔
      ∃ left, Settles (perform · routine) m result left ∧ left.Alike after := by
  have traced : (m.trace message).Alike m := alike_iff.mpr (trace_untraced m message)
  constructor
  · rintro ⟨left, ⟨fuel, ran⟩, alike⟩
    obtain ⟨left', ran', same⟩ :=
      (perform_unaware fuel readable).settled (blind.trace message) traced.symm ran
    exact ⟨left', ⟨fuel, ran'⟩, same.trans alike⟩
  · rintro ⟨left, ⟨fuel, ran⟩, alike⟩
    obtain ⟨left', ran', same⟩ := (perform_unaware fuel readable).settled blind traced ran
    exact ⟨left', ⟨fuel, ran'⟩, same.trans alike⟩

namespace Enters

variable (enters : Enters word literals routine) (blind : m.Blind) (readable : routine.Blind)
  (bound : m.Binds symbol word)

include enters

theorem settles_iff {result : Except Fault Unit} (message : String) :
    Settles (perform · word) ((m.pushAll literals).trace message) result after ↔
      Settles (perform · routine) (m.trace message) result after := by
  simp only [Settles, perform, trace_pushAll, enters.runs]

include blind readable bound

/-- The word succeeds when what it goes on with does. -/
theorem succeeds_iff :
    (∃ after', Succeeds (literals ++ [.operator symbol]) m after' ∧ after'.Alike after) ↔
      ∃ last, Settles (perform · routine) m (.ok ()) last ∧ last.Alike after := by
  obtain ⟨name, known, registered⟩ := bound
  have known' : (m.pushAll literals).operators.find? symbol = some name := known
  have registered' : (m.pushAll literals).functions.find? name = some word := registered
  simp only [Succeeds, settles_application_iff enters.plain,
    evaluate_operator_succeeds_iff registered' known', enters.settles_iff,
    settles_trace_iff blind readable]

/-- The word fails when what it goes on with does, and puts the literals back. -/
theorem fails_iff :
    (∃ after', Fails (literals ++ [.operator symbol]) m fault after' ∧ after'.Alike after) ↔
      ∃ thrown left, Settles (perform · routine) m (.error thrown) left ∧
        fault = surfaced symbol left.stack thrown.voiced ∧
        ({ left with stack := literals.reverse ++ m.stack } : Machine).Alike after := by
  obtain ⟨name, known, registered⟩ := bound
  have known' : (m.pushAll literals).operators.find? symbol = some name := known
  have registered' : (m.pushAll literals).functions.find? name = some word := registered
  simp only [Fails, settles_application_iff enters.plain,
    evaluate_operator_fails_iff registered' known', FailedCall, enters.settles_iff]
  constructor
  · rintro ⟨after', ⟨thrown, atThrow, throws, rolledBack, rfl⟩, alike⟩
    obtain ⟨left, throws', same⟩ :=
      (settles_trace_iff blind readable _).mp ⟨atThrow, throws, .refl atThrow⟩
    refine ⟨thrown, left, throws', ?_, ?_⟩
    · rw [same.stack, surfaced_voiced]
    · exact ((same.withStack _).trans rolledBack.alike.symm).trans alike
  · rintro ⟨thrown, left, throws, rfl, alike⟩
    obtain ⟨atThrow, throws', same⟩ :=
      (settles_trace_iff blind readable ("call " ++ name)).mpr ⟨left, throws, .refl left⟩
    have tracing : atThrow.tracing = (m.pushAll literals).tracing :=
      (tracing_of_settles throws').trans (m.trace_tracing _)
    have rolledBack : RolledBack name thrown (m.pushAll literals) atThrow
        (atThrow.rollback name (m.pushAll literals).stack thrown) :=
      (rolledBack_iff tracing).mpr rfl
    refine ⟨_, ⟨thrown, atThrow, throws', rolledBack, ?_⟩, ?_⟩
    · rw [← same.stack, surfaced_voiced]
    · exact (rolledBack.alike.trans (same.withStack _)).trans alike

end Enters

theorem settles_bind_iff {α β : Type} {r : Routine α} {f : α → Routine β}
    {result : Except Fault β} :
    Settles (perform · (r >>= f)) m result after ↔
      (∃ fault, result = .error fault ∧ Settles (perform · r) m (.error fault) after) ∨
        ∃ a middle, Settles (perform · r) m (.ok a) middle ∧
          Settles (perform · (f a)) middle result after :=
  Settles.seq_iff (fun fuel => perform_bind fuel r f m) (fun fuel => perform_agrees fuel r m)
    fun a middle fuel => perform_agrees fuel (f a) middle

theorem perform_runBlock (fuel : Nat) (b : List Value) (m : Machine) :
    perform (fuel + 1) (Core.runBlock b) m = (evaluate fuel b m).mapFault bareCause := by
  rw [perform, Core.runBlock, runWith_invoke, invokeWith, exec, ← evaluate]
  cases evaluate fuel b m with
  | failed fault m' => cases fault <;> rfl
  | _ => rfl

/-- A block that is run for a native function does what its tokens do. -/
theorem settles_runBlock_iff {result : Except Fault Unit} :
    Settles (perform · (Core.runBlock b)) m result after ↔
      ∃ inner, Settles (evaluate · b) m inner after ∧ result = inner.mapError bareCause := by
  constructor
  · rintro ⟨fuel, ran⟩
    cases fuel with
    | zero => cases result <;> cases ran
    | succ fuel =>
      replace ran := (perform_runBlock fuel b m).symm.trans ran
      cases evaluated : evaluate fuel b m with
      | done _ left =>
        rw [evaluated] at ran
        obtain ⟨rfl, rfl⟩ := Outcome.done_eq_settled.mp ran
        exact ⟨.ok (), ⟨fuel, evaluated⟩, rfl⟩
      | failed fault left =>
        rw [evaluated] at ran
        obtain ⟨rfl, rfl⟩ := Outcome.failed_eq_settled.mp ran
        exact ⟨.error fault, ⟨fuel, evaluated⟩, rfl⟩
      | exhausted =>
        rw [evaluated] at ran
        cases result <;> cases ran
  · rintro ⟨inner, ⟨fuel, ran⟩, rfl⟩
    replace ran : evaluate fuel b m = .settled inner after := ran
    refine ⟨fuel + 1, (perform_runBlock fuel b m).trans ?_⟩
    rw [ran]
    cases inner <;> rfl

theorem runBlock_succeeds_iff :
    Settles (perform · (Core.runBlock b)) m (.ok ()) after ↔ Succeeds b m after := by
  rw [settles_runBlock_iff]
  constructor
  · rintro ⟨inner, ran, same⟩
    cases inner <;> cases same
    exact ran
  · exact fun success => ⟨.ok (), success, rfl⟩

theorem runBlock_fails_iff :
    Settles (perform · (Core.runBlock b)) m (.error fault) after ↔
      ∃ inner, Fails b m inner after ∧ fault = bareCause inner := by
  rw [settles_runBlock_iff]
  constructor
  · rintro ⟨inner, ran, same⟩
    cases inner <;> cases same
    exact ⟨_, ran, rfl⟩
  · rintro ⟨inner, failure, rfl⟩
    exact ⟨.error inner, failure, rfl⟩

/-- A number of rounds, one after another. -/
inductive Rounds (round : Machine → Machine → Prop) : Nat → Machine → Machine → Prop where
  | none (m : Machine) : Rounds round 0 m m
  | next {n : Nat} {m middle after : Machine} (first : round m middle)
      (rest : Rounds round n middle after) : Rounds round (n + 1) m after

/-- A round of a loop that is to be followed by another. -/
def GoesOn (round : Routine Bool) (m after : Machine) : Prop :=
  Settles (perform · round) m (.ok true) after

theorem perform_loop (fuel : Nat) (round : Routine Bool) (m : Machine) :
    perform fuel (Routine.loop round) m = iterate (perform fuel round) fuel m := by
  rw [perform, Routine.loop, runWith_iterate]
  change (iterate (perform fuel round) fuel m).andThen _ = _
  cases iterate (perform fuel round) fuel m <;> rfl

theorem rounds_of_iterate {round : Routine Bool} {fuel k : Nat} {result : Except Fault Unit}
    (ran : iterate (perform fuel round) k m = .settled result after) :
    ∃ n middle ended, Rounds (GoesOn round) n m middle ∧
      Settles (perform · round) middle ended after ∧ ended ≠ .ok true ∧
      result = ended.map fun _ => () := by
  induction k generalizing m with
  | zero => cases result <;> cases ran
  | succ k inductionHypothesis =>
    rw [iterate] at ran
    cases once : perform fuel round m with
    | done again next =>
      rw [once] at ran
      cases again with
      | true =>
        obtain ⟨n, middle, ended, rounds, rest⟩ := inductionHypothesis ran
        exact ⟨n + 1, middle, ended, .next ⟨fuel, once⟩ rounds, rest⟩
      | false =>
        obtain ⟨rfl, rfl⟩ := Outcome.done_eq_settled.mp ran
        exact ⟨0, m, .ok false, .none m, ⟨fuel, once⟩, by simp, rfl⟩
    | failed fault next =>
      rw [once] at ran
      obtain ⟨rfl, rfl⟩ := Outcome.failed_eq_settled.mp ran
      exact ⟨0, m, .error fault, .none m, ⟨fuel, once⟩, by simp, rfl⟩
    | exhausted =>
      rw [once] at ran
      cases result <;> cases ran

theorem Rounds.reaches {α : Type} {round : Routine Bool} {n : Nat}
    (rounds : Rounds (GoesOn round) n m after) (next : Except Fault Unit → Routine α)
    (frames : Frames α) :
    Reaches ⟨.routine round, .round round next frames, m⟩
      ⟨.routine round, .round round next frames, after⟩ := by
  induction rounds with
  | none m => exact .refl _
  | @next n m middle after first rest inductionHypothesis =>
    have reached := Settles.reaches (fun fuel => perform_agrees fuel round m) first
      (.round round next frames)
    exact (reached.tail rfl).trans inductionHypothesis

/-- A loop comes to an end with the first round that is not to be followed by another. -/
theorem settles_loop_iff {round : Routine Bool} {result : Except Fault Unit} :
    Settles (perform · (Routine.loop round)) m result after ↔
      ∃ n middle ended, Rounds (GoesOn round) n m middle ∧
        Settles (perform · round) middle ended after ∧ ended ≠ .ok true ∧
        result = ended.map fun _ => () := by
  constructor
  · rintro ⟨fuel, ran⟩
    exact rounds_of_iterate ((perform_loop fuel round m).symm.trans ran)
  · -- Each round may have fuel of its own; steps need none, so the runs are joined there.
    rintro ⟨n, middle, ended, rounds, final, stops, rfl⟩
    rw [settles_iff_reaches fun fuel => perform_agrees fuel (Routine.loop round) m]
    have reached := rounds.reaches Routine.ofExcept .top
    have finished := final.reaches (fun fuel => perform_agrees fuel round middle)
      (.round round Routine.ofExcept .top)
    refine .head rfl ((reached.trans finished).tail ?_)
    rcases ended with fault | _ | _
    · rfl
    · rfl
    · exact absurd rfl stops

/-- Popping a value for its truth. -/
inductive PopsTruth (m : Machine) : Except Fault Bool → Machine → Prop where
  | truth {value : Value} {below : List Value} {holds : Bool} (stack : m.stack = value :: below)
      (truth : value.truth? = some holds) : PopsTruth m (.ok holds) { m with stack := below }
  | missing (stack : m.stack = []) : PopsTruth m (.error (.language .tooFewArguments)) m
  | code {value : Value} {below : List Value} (stack : m.stack = value :: below)
      (code : value.truth? = none) :
      PopsTruth m (.error (.language (.notBoolean value))) { m with stack := below }

theorem perform_takeTruth (fuel : Nat) (m : Machine) :
    perform fuel Routine.takeTruth m =
      match m.stack with
      | [] => .failed (.language .tooFewArguments) m
      | value :: below =>
        match value.truth? with
        | some holds => .done holds { m with stack := below }
        | none => .failed (.language (.notBoolean value)) { m with stack := below } := by
  rw [perform, ← bind_pure Routine.takeTruth]
  refine (runWith_pop_bind .truth ..).trans ?_
  cases m.stack with
  | nil => rfl
  | cons value below => cases value <;> rfl

theorem settles_takeTruth_iff {result : Except Fault Bool} :
    Settles (perform · Routine.takeTruth) m result after ↔ PopsTruth m result after := by
  constructor
  · rintro ⟨fuel, ran⟩
    replace ran := (perform_takeTruth fuel m).symm.trans ran
    split at ran
    next empty =>
      obtain ⟨rfl, rfl⟩ := Outcome.failed_eq_settled.mp ran
      exact .missing empty
    next value below stack =>
      split at ran
      next holds truth =>
        obtain ⟨rfl, rfl⟩ := Outcome.done_eq_settled.mp ran
        exact .truth stack truth
      next code =>
        obtain ⟨rfl, rfl⟩ := Outcome.failed_eq_settled.mp ran
        exact .code stack code
  · intro pops
    refine ⟨0, (perform_takeTruth 0 m).trans ?_⟩
    cases pops with
    | truth stack truth => simp [stack, truth, Outcome.settled]
    | missing stack => simp [stack, Outcome.settled]
    | code stack code => simp [stack, code, Outcome.settled]

/-- The condition of a loop succeeds, and what it leaves on top is popped for its truth. -/
def Tests (c : List Value) (m : Machine) (result : Except Fault Bool) (after : Machine) : Prop :=
  ∃ tested, Succeeds c m tested ∧ PopsTruth tested result after

/-- A whole round: the condition holds, and the body succeeds. -/
def Round (c b : List Value) (m after : Machine) : Prop :=
  ∃ tested, Tests c m (.ok true) tested ∧ Succeeds b tested after

/-- A round that does not come to its end: the condition fails, or it leaves nothing with a truth,
or the body fails. -/
inductive RoundFails (c b : List Value) (m : Machine) : Fault → Machine → Prop where
  | condition {fault : Fault} {left : Machine} (fails : Fails c m fault left) :
      RoundFails c b m fault left
  | truth {fault : Fault} {left : Machine} (fails : Tests c m (.error fault) left) :
      RoundFails c b m fault left
  | body {fault : Fault} {tested left : Machine} (holds : Tests c m (.ok true) tested)
      (fails : Fails b tested fault left) : RoundFails c b m fault left

theorem RoundFails.raised (fails : RoundFails c b m fault after) :
    (bareCause fault).OfInvocation := by
  cases fails with
  | condition fails => exact fails.raised
  | truth fails =>
    obtain ⟨_, _, pops⟩ := fails
    cases pops <;> trivial
  | body _ fails => exact fails.raised

theorem settles_pure_iff {α : Type} {a : α} {result : Except Fault α} :
    Settles (perform · (pure a)) m result after ↔ result = .ok a ∧ after = m := by
  constructor
  · rintro ⟨fuel, ran⟩
    exact Outcome.done_eq_settled.mp ran
  · rintro ⟨rfl, rfl⟩
    exact ⟨0, rfl⟩

theorem settles_whileRound_iff {result : Except Fault Bool} :
    Settles (perform · (Core.whileRound c b)) m result after ↔
      (Round c b m after ∧ result = .ok true) ∨ (Tests c m (.ok false) after ∧ result = .ok false) ∨
        ∃ fault, RoundFails c b m fault after ∧ result = .error (bareCause fault) := by
  unfold Core.whileRound
  rw [settles_bind_iff]
  constructor
  · rintro (⟨fault, rfl, failed⟩ | ⟨_, tested, ran, later⟩)
    · obtain ⟨inner, fails, rfl⟩ := runBlock_fails_iff.mp failed
      exact .inr (.inr ⟨inner, .condition fails, rfl⟩)
    have success := runBlock_succeeds_iff.mp ran
    rcases settles_bind_iff.mp later with ⟨fault, rfl, failed⟩ | ⟨holds, popped, taken, later⟩
    · have pops := settles_takeTruth_iff.mp failed
      refine .inr (.inr ⟨fault, .truth ⟨tested, success, pops⟩, ?_⟩)
      cases pops <;> rfl
    have tests : Tests c m (.ok holds) popped := ⟨tested, success, settles_takeTruth_iff.mp taken⟩
    cases holds with
    | false =>
      obtain ⟨rfl, rfl⟩ := settles_pure_iff.mp later
      exact .inr (.inl ⟨tests, rfl⟩)
    | true =>
      rcases settles_bind_iff.mp later with ⟨fault, rfl, failed⟩ | ⟨_, last, ran, later⟩
      · obtain ⟨inner, fails, rfl⟩ := runBlock_fails_iff.mp failed
        exact .inr (.inr ⟨inner, .body tests fails, rfl⟩)
      · obtain ⟨rfl, rfl⟩ := settles_pure_iff.mp later
        exact .inl ⟨⟨popped, tests, runBlock_succeeds_iff.mp ran⟩, rfl⟩
  · rintro (⟨⟨popped, ⟨tested, success, pops⟩, ran⟩, rfl⟩ | ⟨⟨tested, success, pops⟩, rfl⟩ |
      ⟨fault, fails, rfl⟩)
    · refine .inr ⟨(), tested, runBlock_succeeds_iff.mpr success, settles_bind_iff.mpr (.inr ?_)⟩
      refine ⟨true, popped, settles_takeTruth_iff.mpr pops, settles_bind_iff.mpr (.inr ?_)⟩
      exact ⟨(), after, runBlock_succeeds_iff.mpr ran, settles_pure_iff.mpr ⟨rfl, rfl⟩⟩
    · refine .inr ⟨(), tested, runBlock_succeeds_iff.mpr success, settles_bind_iff.mpr (.inr ?_)⟩
      exact ⟨false, after, settles_takeTruth_iff.mpr pops, settles_pure_iff.mpr ⟨rfl, rfl⟩⟩
    · cases fails with
      | condition fails => exact .inl ⟨_, rfl, runBlock_fails_iff.mpr ⟨fault, fails, rfl⟩⟩
      | truth fails =>
        obtain ⟨tested, success, pops⟩ := fails
        have same : bareCause fault = fault := by cases pops <;> rfl
        refine .inr ⟨(), tested, runBlock_succeeds_iff.mpr success, settles_bind_iff.mpr (.inl ?_)⟩
        exact ⟨_, rfl, same.symm ▸ settles_takeTruth_iff.mpr pops⟩
      | body holds fails =>
        obtain ⟨tested, success, pops⟩ := holds
        refine .inr ⟨(), tested, runBlock_succeeds_iff.mpr success, settles_bind_iff.mpr (.inr ?_)⟩
        refine ⟨true, _, settles_takeTruth_iff.mpr pops, settles_bind_iff.mpr (.inl ?_)⟩
        exact ⟨_, rfl, runBlock_fails_iff.mpr ⟨fault, fails, rfl⟩⟩

theorem goesOn_whileRound : GoesOn (Core.whileRound c b) = Round c b := by
  funext m after
  simp [GoesOn, settles_whileRound_iff]

/-- A loop ends when its condition is false after a number of whole rounds. -/
theorem whileLoop_succeeds_iff :
    Settles (perform · (Routine.loop (Core.whileRound c b))) m (.ok ()) after ↔
      ∃ n middle, Rounds (Round c b) n m middle ∧ Tests c middle (.ok false) after := by
  simp only [settles_loop_iff, goesOn_whileRound]
  constructor
  · rintro ⟨n, middle, ended, rounds, final, stops, settled⟩
    refine ⟨n, middle, rounds, ?_⟩
    rcases settles_whileRound_iff.mp final with ⟨_, rfl⟩ | ⟨tests, _⟩ | ⟨inner, _, rfl⟩
    · exact absurd rfl stops
    · exact tests
    · cases settled
  · rintro ⟨n, middle, rounds, tests⟩
    have final := (settles_whileRound_iff (b := b)).mpr (.inr (.inl ⟨tests, rfl⟩))
    exact ⟨n, middle, .ok false, rounds, final, by simp, rfl⟩

/-- A loop fails when a round fails after a number of whole rounds. -/
theorem whileLoop_fails_iff :
    Settles (perform · (Routine.loop (Core.whileRound c b))) m (.error fault) after ↔
      ∃ n middle inner, Rounds (Round c b) n m middle ∧ RoundFails c b middle inner after ∧
        fault = bareCause inner := by
  simp only [settles_loop_iff, goesOn_whileRound]
  constructor
  · rintro ⟨n, middle, ended, rounds, final, stops, settled⟩
    rcases settles_whileRound_iff.mp final with ⟨_, rfl⟩ | ⟨_, rfl⟩ | ⟨inner, fails, rfl⟩
    · exact absurd rfl stops
    · cases settled
    · cases settled
      exact ⟨n, middle, inner, rounds, fails, rfl⟩
  · rintro ⟨n, middle, inner, rounds, fails, rfl⟩
    have final := settles_whileRound_iff.mpr (.inr (.inr ⟨inner, fails, rfl⟩))
    exact ⟨n, middle, _, rounds, final, by simp, rfl⟩

theorem enters_whileTrue (c b : List Value) :
    Enters Core.whileTrue [.block c, .block b] (Routine.loop (Core.whileRound c b)) where
  plain := by simp [Literals]
  runs _ _ _ := rfl

/-- The word `while` succeeds after a number of whole rounds and a condition that is false. It fails
when a round does, whatever the blocks do to the tables meanwhile. -/
theorem while_runs_rounds (blind : m.Blind) (bound : m.Binds symbol Core.whileTrue)
    (c b : List Value) (after : Machine) :
    ((∃ after', Succeeds [.block c, .block b, .operator symbol] m after' ∧ after'.Alike after) ↔
      ∃ n middle last, Rounds (Round c b) n m middle ∧ Tests c middle (.ok false) last ∧
        last.Alike after) ∧
    ∀ fault,
      (∃ after', Fails [.block c, .block b, .operator symbol] m fault after' ∧
        after'.Alike after) ↔
      ∃ n middle inner left, Rounds (Round c b) n m middle ∧ RoundFails c b middle inner left ∧
        fault = surfaced symbol left.stack inner ∧
        ({ left with stack := .block b :: .block c :: m.stack } : Machine).Alike after := by
  have enters := enters_whileTrue c b
  have readable : (Routine.loop (Core.whileRound c b)).Blind :=
    (Routine.obeys_loop (Core.obeys_whileRound trivial trivial)).blind
  constructor
  · refine (enters.succeeds_iff blind readable bound).trans ?_
    simp only [whileLoop_succeeds_iff]
    constructor
    · rintro ⟨last, ⟨n, middle, rounds, tests⟩, alike⟩
      exact ⟨n, middle, last, rounds, tests, alike⟩
    · rintro ⟨n, middle, last, rounds, tests, alike⟩
      exact ⟨last, ⟨n, middle, rounds, tests⟩, alike⟩
  · intro fault
    refine (enters.fails_iff blind readable bound).trans ?_
    simp only [whileLoop_fails_iff]
    constructor
    · rintro ⟨_, left, ⟨n, middle, inner, rounds, fails, rfl⟩, rfl, alike⟩
      exact ⟨n, middle, inner, left, rounds, fails, surfaced_of_raised fails.raised _ _, alike⟩
    · rintro ⟨n, middle, inner, left, rounds, fails, rfl, alike⟩
      exact ⟨_, left, ⟨n, middle, inner, rounds, fails, rfl⟩,
        (surfaced_of_raised fails.raised _ _).symm, alike⟩

/-- A machine with the words that loop, and words that rebind an operator and drop a value. -/
def looping (stack : List Value) : Machine where
  stack := stack
  functions := ⟨[("while", Core.whileTrue), ("times", Core.times), ("alias", Core.bindAlias),
    ("drop", Core.drop)]⟩
  operators := ⟨[("w", "while"), ("t", "times"), ("@", "alias"), ("k", "drop")]⟩

theorem blind_looping (stack : List Value) : (looping stack).Blind := by
  simp [Blind, looping, Core.blind_bindAlias, Core.blind_drop, Core.obeys_whileTrue.blind,
    Core.obeys_times.blind]

/-- Tokens that make another operator of a symbol. -/
def rebind (symbol : String) : List Value := [.string "drop", .string symbol, .operator "@"]

theorem while_runs_rounds_rebinding :
    (∃ after, Succeeds [.block [], .block (rebind "w"), .operator "w"]
        (looping [.boolean true, .boolean false]) after ∧
      after.stack = [] ∧ after.operators.find? "w" = some "drop") ∧
    ∃ after, Fails [.block [], .block (rebind "w"), .operator "w"] (looping [.boolean true])
        (.evaluation .tooFewArguments [] (some (.operator "w"))) after ∧
      after.stack = [.block (rebind "w"), .block [], .boolean true] ∧
      after.operators.find? "w" = some "drop" := by
  have bound : ∀ stack, (looping stack).Binds "w" Core.whileTrue := fun stack => ⟨"while", rfl, rfl⟩
  have round : ∀ stack, ∃ middle, Round [] (rebind "w") (looping (.boolean true :: stack)) middle ∧
      middle.stack = stack ∧ middle.operators.find? "w" = some "drop" := by
    intro stack
    exact ⟨_, ⟨_, ⟨_, ⟨0, rfl⟩, .truth rfl rfl⟩, ⟨3, rfl⟩⟩, rfl, rfl⟩
  constructor
  · obtain ⟨middle, first, stack, rebound⟩ := round [.boolean false]
    have tests : Tests [] middle (.ok false) { middle with stack := [] } :=
      ⟨middle, ⟨0, rfl⟩, .truth stack rfl⟩
    obtain ⟨after, success, alike⟩ :=
      (while_runs_rounds (blind_looping _) (bound _) [] (rebind "w") _).1.mpr
        ⟨1, middle, _, .next first (.none middle), tests, .refl _⟩
    exact ⟨after, success, alike.stack, alike.operators ▸ rebound⟩
  · obtain ⟨middle, first, stack, rebound⟩ := round []
    have fails : RoundFails [] (rebind "w") middle (.language .tooFewArguments) middle :=
      .truth ⟨middle, ⟨0, rfl⟩, .missing stack⟩
    obtain ⟨after, failure, alike⟩ :=
      ((while_runs_rounds (blind_looping _) (bound _) [] (rebind "w") _).2 _).mpr
        ⟨1, middle, _, middle, .next first (.none middle), fails, rfl, .refl _⟩
    rw [stack] at failure
    exact ⟨after, failure, alike.stack, alike.operators ▸ rebound⟩

/-- Runs of a block, one after another, are one run of its copies. -/
theorem rounds_succeeds_iff {k : Nat} :
    Rounds (Succeeds b) k m after ↔ Succeeds (List.replicate k b).flatten m after := by
  induction k generalizing m with
  | zero =>
    constructor
    · rintro ⟨⟩
      exact ⟨0, rfl⟩
    · rintro ⟨fuel, ran⟩
      obtain ⟨_, rfl⟩ := Outcome.done_eq_settled.mp ran
      exact .none _
  | succ k inductionHypothesis =>
    rw [List.replicate_succ, List.flatten_cons, succeeds_append_iff]
    simp only [← inductionHypothesis]
    constructor
    · rintro ⟨⟩
      exact ⟨_, ‹_›, ‹_›⟩
    · rintro ⟨middle, first, rest⟩
      exact .next first rest

theorem repeatBlock_succeeds_iff {k : Nat} :
    Settles (perform · (Core.repeatBlock b k)) m (.ok ()) after ↔
      Rounds (Succeeds b) k m after := by
  induction k generalizing m with
  | zero =>
    refine settles_pure_iff.trans ⟨?_, ?_⟩
    · rintro ⟨_, rfl⟩
      exact .none _
    · rintro ⟨⟩
      exact ⟨rfl, rfl⟩
  | succ k inductionHypothesis =>
    refine settles_bind_iff.trans ⟨?_, ?_⟩
    · rintro (⟨fault, settled, _⟩ | ⟨_, middle, first, rest⟩)
      · cases settled
      · exact .next (runBlock_succeeds_iff.mp first) (inductionHypothesis.mp rest)
    · rintro (_ | ⟨first, rest⟩)
      exact .inr ⟨(), _, runBlock_succeeds_iff.mpr first, inductionHypothesis.mpr rest⟩

theorem repeatBlock_fails_iff {k : Nat} :
    Settles (perform · (Core.repeatBlock b k)) m (.error fault) after ↔
      ∃ j middle inner, j < k ∧ Rounds (Succeeds b) j m middle ∧ Fails b middle inner after ∧
        fault = bareCause inner := by
  induction k generalizing m with
  | zero =>
    refine settles_pure_iff.trans ⟨?_, ?_⟩
    · rintro ⟨settled, _⟩
      cases settled
    · rintro ⟨j, _, _, before, _⟩
      cases before
  | succ k inductionHypothesis =>
    refine settles_bind_iff.trans ⟨?_, ?_⟩
    · rintro (⟨thrown, settled, failed⟩ | ⟨_, middle, first, rest⟩)
      · cases settled
        obtain ⟨inner, fails, rfl⟩ := runBlock_fails_iff.mp failed
        exact ⟨0, m, inner, k.succ_pos, .none m, fails, rfl⟩
      · obtain ⟨j, last, inner, before, rounds, fails, rfl⟩ := inductionHypothesis.mp rest
        exact ⟨j + 1, last, inner, Nat.succ_lt_succ before,
          .next (runBlock_succeeds_iff.mp first) rounds, fails, rfl⟩
    · rintro ⟨j, last, inner, before, rounds, fails, rfl⟩
      cases rounds with
      | none => exact .inl ⟨_, rfl, runBlock_fails_iff.mpr ⟨inner, fails, rfl⟩⟩
      | @next j _ middle _ first rest =>
        have later := inductionHypothesis.mpr
          ⟨j, last, inner, Nat.lt_of_succ_lt_succ before, rest, fails, rfl⟩
        exact .inr ⟨(), middle, runBlock_succeeds_iff.mpr first, later⟩

theorem enters_times {x : Float} {k : Nat} (counts : Number.Counts x k) (b : List Value) :
    Enters Core.times [.number x, .block b] (Core.repeatBlock b k) where
  plain := by simp [Literals]
  runs exec n m := by
    have block : Demand.block.receive (.block b) = .ok b := rfl
    have number : Demand.number.receive (.number x) = .ok x := rfl
    refine (runWith_pop_bind_push block exec n _ (m.push (.number x))).trans ?_
    refine (runWith_pop_bind_push number exec n _ m).trans ?_
    rw [Number.repetitions_of_counts counts]

/-- The word `times` does what as many copies of its block do, whatever these do to the tables
meanwhile. It fails when a repetition does. -/
theorem times_repeats {x : Float} {k : Nat} (blind : m.Blind) (bound : m.Binds symbol Core.times)
    (counts : Number.Counts x k) (b : List Value) (after : Machine) :
    ((∃ after', Succeeds [.number x, .block b, .operator symbol] m after' ∧
        after'.Alike after) ↔
      ∃ last, Rounds (Succeeds b) k m last ∧ last.Alike after) ∧
    (∀ last, Rounds (Succeeds b) k m last ↔ Succeeds (List.replicate k b).flatten m last) ∧
    ∀ fault,
      (∃ after', Fails [.number x, .block b, .operator symbol] m fault after' ∧
        after'.Alike after) ↔
      ∃ j middle inner left, j < k ∧ Rounds (Succeeds b) j m middle ∧
        Fails b middle inner left ∧ fault = surfaced symbol left.stack inner ∧
        ({ left with stack := .block b :: .number x :: m.stack } : Machine).Alike after := by
  have enters := enters_times counts b
  have readable : (Core.repeatBlock b k).Blind := (Core.obeys_repeatBlock trivial k).blind
  refine ⟨?_, fun last => rounds_succeeds_iff, fun fault => ?_⟩
  · refine (enters.succeeds_iff blind readable bound).trans ?_
    simp only [repeatBlock_succeeds_iff]
  · refine (enters.fails_iff blind readable bound).trans ?_
    simp only [repeatBlock_fails_iff]
    constructor
    · rintro ⟨_, left, ⟨j, middle, inner, before, rounds, fails, rfl⟩, rfl, alike⟩
      exact ⟨j, middle, inner, left, before, rounds, fails, surfaced_of_raised fails.raised _ _,
        alike⟩
    · rintro ⟨j, middle, inner, left, before, rounds, fails, rfl, alike⟩
      exact ⟨_, left, ⟨j, middle, inner, before, rounds, fails, rfl⟩,
        (surfaced_of_raised fails.raised _ _).symm, alike⟩

theorem counts_two_and_a_half : Number.Counts 2.5 2 := by
  have value : Number.value? 2.5 = some (5 / 2) := by
    have isFinite : Number.parts 2.5 = .finite false 5629499534213120 (-51) := by decide +kernel
    rw [Number.value?, isFinite]
    norm_num
  have whole : ⌊(5 / 2 : ℚ)⌋ = 2 := by norm_num
  have count : (max 0 (Number.truncate (5 / 2))).toNat = 2 := by
    rw [Number.truncate, if_pos (by norm_num), whole]
    rfl
  exact count ▸ .finite value (by norm_num [abs_of_pos])

theorem times_repeats_rebinding :
    (∃ after, Succeeds [.number 2.5, .block (.operator "k" :: rebind "t"), .operator "t"]
        (looping [.boolean true, .boolean false]) after ∧
      after.stack = [] ∧ after.operators.find? "t" = some "drop") ∧
    ∃ after, Fails [.number 2.5, .block (.operator "k" :: rebind "t"), .operator "t"]
        (looping [.boolean true])
        (.evaluation .tooFewArguments [] (some (.operator "t"))) after ∧
      after.stack = [.block (.operator "k" :: rebind "t"), .number 2.5, .boolean true] ∧
      after.operators.find? "t" = some "drop" := by
  have bound : ∀ stack, (looping stack).Binds "t" Core.times := fun stack => ⟨"times", rfl, rfl⟩
  constructor
  · have rounds : ∃ last, Rounds (Succeeds (.operator "k" :: rebind "t")) 2
        (looping [.boolean true, .boolean false]) last ∧ last.stack = [] ∧
        last.operators.find? "t" = some "drop" :=
      ⟨_, .next ⟨3, rfl⟩ (.next ⟨3, rfl⟩ (.none _)), rfl, rfl⟩
    obtain ⟨last, rounds, stack, rebound⟩ := rounds
    obtain ⟨after, success, alike⟩ :=
      (times_repeats (blind_looping _) (bound _) counts_two_and_a_half _ _).1.mpr
        ⟨last, rounds, .refl last⟩
    exact ⟨after, success, alike.stack.trans stack, alike.operators ▸ rebound⟩
  · have rounds : ∃ middle left, Rounds (Succeeds (.operator "k" :: rebind "t")) 1
        (looping [.boolean true]) middle ∧
        Fails (.operator "k" :: rebind "t") middle
          (.evaluation .tooFewArguments [] (some (.operator "k"))) left ∧ left.stack = [] ∧
        left.operators.find? "t" = some "drop" :=
      ⟨_, _, .next ⟨3, rfl⟩ (.none _), ⟨3, rfl⟩, rfl, rfl⟩
    obtain ⟨middle, left, rounds, fails, stack, rebound⟩ := rounds
    obtain ⟨after, failure, alike⟩ :=
      ((times_repeats (blind_looping _) (bound _) counts_two_and_a_half _ _).2.2 _).mpr
        ⟨1, middle, _, left, by decide, rounds, fails, rfl, .refl _⟩
    rw [stack] at failure
    exact ⟨after, failure, alike.stack, alike.operators ▸ rebound⟩

end Cairn.Machine
