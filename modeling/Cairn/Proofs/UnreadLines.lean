import Cairn.Prompt
import Cairn.Proofs.LanguageErrors

set_option autoImplicit false

/-!
# Lines that cannot be read

A line at the prompt either cannot be read, and then nothing runs, or it is evaluated. The prompt
tells the two apart by the failure it sees. It may do so because a call turns every failure of the
language into a failed evaluation and an invocation strips that to its cause: a text that a native
function cannot read fails there, and what leaves the line is no failure of reading any more.
-/

namespace Cairn

namespace Fault

/-- What an evaluation can fail with: a failed evaluation, or a failure from outside the
language that has a text. -/
def OfEvaluation : Fault → Prop
  | .language _ | .reading .. | .mute .. => False
  | _ => True

/-- What an invocation can fail with: a bare cause, or a failure from outside the language that
has a text. -/
def OfInvocation : Fault → Prop
  | .reading .. | .evaluation .. | .mute .. => False
  | _ => True

theorem ofEvaluation_leaving (stack : List Value) (fault : Fault) :
    (Machine.leaving stack fault).OfEvaluation := by
  cases fault <;> trivial

theorem OfEvaluation.withToken {fault : Fault} (surfaced : fault.OfEvaluation)
    (token : Option Value) : (fault.withToken token).OfEvaluation := by
  cases fault <;> exact surfaced

theorem OfEvaluation.bareCause {fault : Fault} (surfaced : fault.OfEvaluation) :
    (Machine.bareCause fault).OfInvocation := by
  cases fault with
  | language cause => cases surfaced
  | reading cause offset => cases surfaced
  | mute label complaint => cases surfaced
  | _ => trivial

theorem OfEvaluation.text {fault : Fault} (surfaced : fault.OfEvaluation) :
    fault.text = .ok fault.message := by
  cases fault with
  | mute label complaint => cases surfaced
  | _ => rfl

theorem OfInvocation.text {fault : Fault} (raised : fault.OfInvocation) :
    fault.text = .ok fault.message := by
  cases fault with
  | mute label complaint => cases raised
  | _ => rfl

theorem OfInvocation.voiced {fault : Fault} (raised : fault.OfInvocation) :
    fault.voiced = fault :=
  fault.voiced_eq_self_iff.mpr (by rw [raised.text]; rfl)

end Fault

namespace Outcome

variable {α : Type} {o : Outcome α} {fault : Fault} {m m' : Machine}

theorem mapFault_eq_done {f : Fault → Fault} {a : α} :
    o.mapFault f = .done a m' ↔ o = .done a m' := by
  cases o <;> simp [mapFault]

theorem mapFault_eq_failed {f : Fault → Fault} (failed : o.mapFault f = .failed fault m') :
    ∃ inner, o = .failed inner m' ∧ fault = f inner := by
  cases o with
  | done a m => cases failed
  | failed inner m =>
    cases failed
    exact ⟨inner, rfl, rfl⟩
  | exhausted => cases failed

end Outcome

namespace Machine

variable {α β : Type} {m m' : Machine} {exec : Value → Action Unit} {n : Nat} {fault : Fault}

theorem callWith_fault {name : String} (failed : callWith exec n name m = .failed fault m') :
    fault.OfEvaluation := by
  unfold callWith at failed
  split at failed
  next =>
    cases failed
    trivial
  next body registered =>
    dsimp only at failed
    split at failed <;> cases failed
    exact Fault.ofEvaluation_leaving _ _

/-- The operators of a token list call functions, and these are all that can fail in it. -/
theorem evaluateWith_fault
    (calls : ∀ name m fault m', exec (.function name) m = .failed fault m' → fault.OfEvaluation)
    {tokens : List Value} (failed : evaluateWith exec tokens m = .failed fault m') :
    fault.OfEvaluation := by
  fun_induction evaluateWith exec tokens m with
  | case1 m => cases failed
  | case2 symbol rest m token absent =>
    cases failed
    trivial
  | case3 symbol rest m name present _ middle called inductionHypothesis =>
    exact inductionHypothesis failed
  | case4 symbol rest m token name present inner middle called =>
    cases failed
    exact (calls name m inner m' called).withToken _
  | case5 symbol rest m name present called => cases failed
  | case6 value rest m literal inductionHypothesis => exact inductionHypothesis failed

theorem exec_function_fault {fuel : Nat} {name : String}
    (failed : Machine.exec fuel (.function name) m = .failed fault m') : fault.OfEvaluation := by
  cases fuel with
  | zero => cases failed
  | succ fuel => exact callWith_fault failed

theorem evaluate_fault {fuel : Nat} {tokens : List Value}
    (failed : evaluate fuel tokens m = .failed fault m') : fault.OfEvaluation :=
  evaluateWith_fault (fun _ _ _ _ => exec_function_fault) failed

theorem exec_fault {fuel : Nat} {value : Value}
    (failed : Machine.exec fuel value m = .failed fault m') : fault.OfEvaluation := by
  cases fuel with
  | zero => cases failed
  | succ fuel =>
    cases value with
    | function name => exact callWith_fault failed
    | block body =>
      obtain ⟨inner, ran, rfl⟩ := Outcome.mapFault_eq_failed failed
      exact (evaluate_fault ran).withToken none
    | _ =>
      cases failed
      trivial

theorem invoke_fault {fuel : Nat} {value : Value}
    (failed : invoke fuel value m = .failed fault m') : fault.OfInvocation := by
  obtain ⟨inner, ran, rfl⟩ := Outcome.mapFault_eq_failed failed
  exact (exec_fault ran).bareCause

theorem run_eq_parse (fuel : Nat) (source : String) (m : Machine) :
    run fuel source m =
      match m.parse source with
      | .ok reading => evaluate fuel reading.tokens m
      | .error fault => .failed fault m := by
  rw [run_eq, parse]
  cases read m.isOperator source <;> rfl

theorem parse_fault {source : String} (failed : m.parse source = .error fault) :
    ∃ cause offset, fault = .reading cause offset := by
  unfold parse at failed
  split at failed <;> cases failed
  exact ⟨_, _, rfl⟩

/-- Whatever a source text fails with has a text. -/
theorem text_of_run {fuel : Nat} {source : String} (failed : run fuel source m = .failed fault m') :
    fault.text = .ok fault.message := by
  rw [run_eq_parse] at failed
  split at failed
  next reading readable => exact (evaluate_fault failed).text
  next unreadable =>
    cases failed
    obtain ⟨cause, offset, rfl⟩ := parse_fault unreadable
    rfl

/-- A routine that is attempted goes on from its result or from its failure. -/
theorem perform_attempt_bind (fuel : Nat) (r : Routine α) (f : Except Fault α → Routine β)
    (m : Machine) :
    perform fuel (r.attempt >>= f) m =
      (perform fuel r m).andThen fun result => perform fuel (f result) := by
  unfold perform
  induction r generalizing m with
  | done a => rfl
  | fail fault => rfl
  | perform request next inductionHypothesis =>
    rw [Configuration.runWith_perform]
    refine (Configuration.runWith_perform ..).trans ?_
    cases respond (exec fuel) request m with
    | done reply m' => exact inductionHypothesis (.ok reply) f m'
    | failed fault m' => exact inductionHypothesis (.error fault) f m'
    | exhausted => rfl
  | define name body next _ inductionHypothesis => exact inductionHypothesis f _
  | iterate round next _ inductionHypothesis =>
    rw [Configuration.runWith_iterate]
    refine (Configuration.runWith_iterate ..).trans ?_
    cases iterate (runWith (exec fuel) fuel round) fuel m with
    | done _ m' => exact inductionHypothesis (.ok ()) f m'
    | failed fault m' => exact inductionHypothesis (.error fault) f m'
    | exhausted => rfl

theorem bind_eq_attempt_bind (r : Routine α) (f : α → Routine β) :
    r >>= f = r.attempt >>= fun
      | .ok a => f a
      | .error fault => .fail fault := by
  induction r with
  | done a => rfl
  | fail fault => rfl
  | perform request next inductionHypothesis =>
    exact congrArg (Routine.perform request) (funext fun reply => inductionHypothesis reply f)
  | define name body next _ inductionHypothesis =>
    exact congrArg (Routine.define name body) (inductionHypothesis f)
  | iterate round next _ inductionHypothesis =>
    exact congrArg (Routine.iterate round) (funext fun reply => inductionHypothesis reply f)

theorem perform_bind (fuel : Nat) (r : Routine α) (f : α → Routine β) (m : Machine) :
    perform fuel (r >>= f) m = (perform fuel r m).bind fun a => perform fuel (f a) := by
  rw [bind_eq_attempt_bind, perform_attempt_bind]
  cases perform fuel r m <;> rfl

end Machine

namespace Prompt

open Machine

/-- What is shown in front of the stack of how a line ended. -/
def complaint : Except Fault Unit → List String
  | .ok _ => []
  | .error fault => fault.report

end Prompt

namespace Machine

variable {m m' : Machine} {line : String} {cause : Cause} {offset : Option Int}

theorem run_reading_fault (failed : Settles (run · line) m (.error (.reading cause offset)) m') :
    m' = m ∧ m.parse line = .error (.reading cause offset) := by
  obtain ⟨fuel, failed⟩ := failed
  replace failed : run fuel line m = .failed (.reading cause offset) m' := failed
  rw [run_eq_parse] at failed
  split at failed
  next reading readable => cases evaluate_fault failed
  next fault unreadable =>
    cases failed
    exact ⟨rfl, unreadable⟩

end Machine

end Cairn
