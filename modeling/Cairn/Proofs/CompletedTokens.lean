import Cairn.Proofs.Rollback

set_option autoImplicit false

/-!
# Completed tokens

Token lists that fail. Evaluation goes token by token: what two lists do one after the other is what
they do in one. A list fails at one operator; the tokens before it have had their whole effect, and
it and the tokens after it leave the stack alone.
-/

namespace Cairn.Machine

open Cairn.Configuration

variable {tokens : List Value} {m m' middle after : Machine} {symbol name : String}
  {body : Routine Unit} {fault : Fault}

def Succeeds (tokens : List Value) (m after : Machine) : Prop :=
  Settles (evaluate · tokens) m (.ok ()) after

def Fails (tokens : List Value) (m : Machine) (fault : Fault) (after : Machine) : Prop :=
  Settles (evaluate · tokens) m (.error fault) after

theorem Succeeds.unique (first : Succeeds tokens m middle) (second : Succeeds tokens m after) :
    middle = after :=
  (Settles.unique (fun fuel => evaluate_agrees fuel tokens m) first second).2

theorem Succeeds.not_fails (success : Succeeds tokens m middle) : ¬ Fails tokens m fault after := by
  intro fails
  have same := (Settles.unique (fun fuel => evaluate_agrees fuel tokens m) success fails).1
  cases same

theorem evaluateWith_append (exec : Value → Action Unit) (a b : List Value) (m : Machine) :
    evaluateWith exec (a ++ b) m = (evaluateWith exec a m).bind fun _ => evaluateWith exec b := by
  fun_induction evaluateWith exec a m with
  | case1 m => rfl
  | case2 symbol rest m token absent => simp [evaluateWith, absent, Outcome.bind, token]
  | case3 symbol rest m name present _ m' ran inductionHypothesis =>
    simp only [List.cons_append, evaluateWith, present, ran]
    exact inductionHypothesis
  | case4 symbol rest m token name present fault m' ran =>
    simp [evaluateWith, present, ran, Outcome.bind, token]
  | case5 symbol rest m name present ran => simp [evaluateWith, present, ran, Outcome.bind]
  | case6 value rest m literal inductionHypothesis =>
    rw [List.cons_append, evaluateWith]
    · exact inductionHypothesis
    · exact literal

theorem evaluate_append (fuel : Nat) (a b : List Value) (m : Machine) :
    evaluate fuel (a ++ b) m = (evaluate fuel a m).bind fun _ => evaluate fuel b :=
  evaluateWith_append (exec fuel) a b m

theorem settles_append_iff {a b : List Value} {result : Except Fault Unit} :
    Settles (evaluate · (a ++ b)) m result after ↔
      (∃ fault, result = .error fault ∧ Fails a m fault after) ∨
        ∃ middle, Succeeds a m middle ∧ Settles (evaluate · b) middle result after := by
  rw [Settles.seq_iff (fun fuel => evaluate_append fuel a b m)
    (fun fuel => evaluate_agrees fuel a m) fun _ middle fuel => evaluate_agrees fuel b middle]
  exact or_congr_right ⟨fun ⟨_, ran⟩ => ran, fun ran => ⟨(), ran⟩⟩

theorem succeeds_append_iff {a b : List Value} :
    Succeeds (a ++ b) m after ↔ ∃ middle, Succeeds a m middle ∧ Succeeds b middle after := by
  simp [Succeeds, settles_append_iff]

theorem fails_append_iff {a b : List Value} :
    Fails (a ++ b) m fault after ↔
      Fails a m fault after ∨ ∃ middle, Succeeds a m middle ∧ Fails b middle fault after := by
  simp [Fails, settles_append_iff]

theorem succeeds_literal {value : Value} (literal : ∀ symbol, value ≠ .operator symbol)
    (m : Machine) : Succeeds [value] m (m.push value) := by
  refine ⟨0, ?_⟩
  cases value with
  | operator symbol => exact absurd rfl (literal symbol)
  | _ => rfl

/-- A list that fails consists of tokens that succeed, an operator that fails and a rest. -/
theorem Fails.exists_operator (fails : Fails tokens m fault after) :
    ∃ before symbol rest middle, tokens = before ++ .operator symbol :: rest ∧
      Succeeds before m middle ∧ Fails [.operator symbol] middle fault after := by
  induction tokens generalizing m with
  | nil =>
    obtain ⟨fuel, ran⟩ := fails
    cases ran
  | cons token rest inductionHypothesis =>
    rcases fails_append_iff.mp (List.singleton_append ▸ fails) with first | ⟨middle, first, later⟩
    · by_cases isOperator : ∃ symbol, token = .operator symbol
      · obtain ⟨symbol, rfl⟩ := isOperator
        exact ⟨[], symbol, rest, m, rfl, ⟨0, rfl⟩, first⟩
      · have success := succeeds_literal (fun symbol same => isOperator ⟨symbol, same⟩) m
        exact absurd first success.not_fails
    · obtain ⟨before, symbol, rest, last, rfl, success, failure⟩ := inductionHypothesis later
      refine ⟨token :: before, symbol, rest, last, rfl, ?_, failure⟩
      exact succeeds_append_iff.mpr ⟨middle, first, success⟩

/-- An operator fails at its symbol, at its name, or in the function that it calls. -/
theorem Fails.operator_cases (fails : Fails [.operator symbol] m fault after) :
    (∃ cause, fault = .evaluation cause m.stack (some (.operator symbol)) ∧ after = m) ∨
      ∃ name body, m.operators.find? symbol = some name ∧ m.functions.find? name = some body ∧
        FailedCall m name body (.evaluation · · (some (.operator symbol))) fault after := by
  have ⟨fuel, ran⟩ := fails
  replace ran : evaluate fuel [.operator symbol] m = .failed fault after := ran
  cases known : m.operators.find? symbol with
  | none =>
    simp only [evaluate, evaluateWith, known, Outcome.failed.injEq] at ran
    exact .inl ⟨_, ran.1.symm, ran.2.symm⟩
  | some name =>
    cases registered : m.functions.find? name with
    | none =>
      rw [evaluate_operator known] at ran
      cases fuel with
      | zero => cases ran
      | succ fuel =>
        simp only [exec, callWith, registered, Outcome.mapFault, Outcome.failed.injEq] at ran
        exact .inl ⟨_, ran.1.symm, ran.2.symm⟩
    | some body =>
      exact .inr ⟨name, body, rfl, registered,
        (evaluate_operator_fails_iff registered known).mp fails⟩

theorem Fails.operator_stack (fails : Fails [.operator symbol] m fault after) :
    after.stack = m.stack := by
  rcases fails.operator_cases with ⟨_, _, rfl⟩ | ⟨_, _, _, _, _, _, _, rolledBack, _⟩
  · rfl
  · exact rolledBack.stack

/-- A failure as the call of an operator lets it through: something from outside the language that
its function threw, or the complaint about it. -/
structure ThrownBy (symbol : String) (m : Machine) (thrown fault : Fault) : Prop where
  foreign : thrown.cause? = none
  voiced : fault = thrown.voiced
  thrown : ∃ name body atThrow, m.operators.find? symbol = some name ∧
    m.functions.find? name = some body ∧
    Settles (perform · body) (m.trace ("call " ++ name)) (.error thrown) atThrow

/-- The failure of an operator names the operator, or it comes from what a native function threw. -/
theorem Fails.operator_fault (fails : Fails [.operator symbol] m fault after) :
    (∃ cause stack, fault = .evaluation cause stack (some (.operator symbol))) ∨
      ∃ thrown, ThrownBy symbol m thrown fault := by
  rcases fails.operator_cases with ⟨cause, rfl, _⟩ | ⟨name, body, known, registered, failed⟩
  · exact .inl ⟨cause, m.stack, rfl⟩
  · obtain ⟨thrown, atThrow, throws, _, rfl⟩ := failed
    cases caused : thrown.cause? with
    | some cause => exact .inl ⟨cause, atThrow.stack, rfl⟩
    | none => exact .inr ⟨thrown, caused, rfl, name, body, atThrow, known, registered, throws⟩

/-- The tokens before an index succeed and the operator there fails. -/
def StopsAt (tokens : List Value) (m : Machine) (i : Nat) : Prop :=
  ∃ symbol middle fault after, tokens[i]? = some (.operator symbol) ∧
    Succeeds (tokens.take i) m middle ∧ Fails [.operator symbol] middle fault after

theorem StopsAt.not_lt {i j : Nat} (first : StopsAt tokens m i) (second : StopsAt tokens m j) :
    ¬ i < j := by
  intro less
  obtain ⟨symbol, middle, fault, after, place, success, failure⟩ := first
  obtain ⟨_, later, _, _, _, success', _⟩ := second
  have split : tokens.take j =
      tokens.take i ++ ([.operator symbol] ++ (tokens.take j).drop (i + 1)) := by
    have start : (tokens.take j).take (i + 1) = tokens.take i ++ [.operator symbol] := by
      rw [List.take_take, Nat.min_eq_left less, List.take_add_one, place]
      rfl
    rw [← List.append_assoc, ← start, List.take_append_drop]
  rw [split, succeeds_append_iff] at success'
  obtain ⟨middle', success', rest⟩ := success'
  obtain ⟨_, operator, _⟩ := succeeds_append_iff.mp rest
  rw [success'.unique success] at operator
  exact operator.not_fails failure

/-- A list that fails keeps exactly the completed tokens, and its failure names the operator that it
stops at or comes from what a native function threw. -/
theorem evaluate_keeps_completed_tokens (tokens : List Value) (m : Machine) :
    (∀ fault after, Fails tokens m fault after →
      ∃ i symbol middle, (∀ j, StopsAt tokens m j ↔ j = i) ∧
        tokens[i]? = some (.operator symbol) ∧ Succeeds (tokens.take i) m middle ∧
        Fails [.operator symbol] middle fault after ∧ after.stack = middle.stack ∧
        (∀ rest, Fails (tokens.take (i + 1) ++ rest) m fault after) ∧
        ((∃ cause stack, fault = .evaluation cause stack (some (.operator symbol))) ∨
          ∃ thrown, ThrownBy symbol middle thrown fault ∧ (thrown.text.isOk → fault = thrown))) ∧
    ∀ after, Succeeds tokens m after → ∀ a b, tokens = a ++ b →
      ∃ middle, Succeeds a m middle ∧ Succeeds b middle after := by
  constructor
  · intro fault after fails
    obtain ⟨before, symbol, rest, middle, rfl, success, failure⟩ := fails.exists_operator
    have place : (before ++ .operator symbol :: rest)[before.length]? =
        some (.operator symbol) := by simp
    have front : (before ++ .operator symbol :: rest).take before.length = before := by simp
    have through : (before ++ .operator symbol :: rest).take (before.length + 1) =
        before ++ [.operator symbol] := by
      rw [List.take_add_one, front, place]
      rfl
    have stops : StopsAt (before ++ .operator symbol :: rest) m before.length :=
      ⟨symbol, middle, fault, after, place, front.symm ▸ success, failure⟩
    refine ⟨before.length, symbol, middle, fun j => ⟨fun stops' => ?_, ?_⟩, place,
      front.symm ▸ success, failure, failure.operator_stack, fun more => ?_, ?_⟩
    · exact Nat.le_antisymm (Nat.le_of_not_lt (stops.not_lt stops'))
        (Nat.le_of_not_lt (stops'.not_lt stops))
    · rintro rfl
      exact stops
    · rw [through, List.append_assoc, fails_append_iff]
      exact .inr ⟨middle, success, fails_append_iff.mpr (.inl failure)⟩
    · refine failure.operator_fault.imp_right ?_
      rintro ⟨thrown, by_⟩
      exact ⟨thrown, by_, fun spoken => by_.voiced.trans (thrown.voiced_eq_self_iff.mpr spoken)⟩
  · rintro after success a b rfl
    exact succeeds_append_iff.mp success

/-- A machine where a block that runs `spoil` can be run itself. -/
def nesting : Machine where
  functions := ⟨[("run", do Routine.invoke (← Routine.pop)), ("spoil", spoil)]⟩
  operators := ⟨[("x", "run"), ("!", "spoil")]⟩

def nestedTokens : List Value :=
  [.boolean true, .block [.boolean false, .operator "!"], .operator "x", .operator "!"]

theorem evaluate_keeps_completed_tokens_nested :
    ∃ after, Fails nestedTokens nesting (.evaluation .tooFewArguments
        [.boolean false, .boolean true] (some (.operator "x"))) after ∧
      (∀ j, StopsAt nestedTokens nesting j ↔ j = 2) ∧
      after.stack = [.block [.boolean false, .operator "!"], .boolean true] := by
  have failed : ∃ after, Fails nestedTokens nesting (.evaluation .tooFewArguments
        [.boolean false, .boolean true] (some (.operator "x"))) after ∧
      after.stack = [.block [.boolean false, .operator "!"], .boolean true] := ⟨_, ⟨4, rfl⟩, rfl⟩
  obtain ⟨after, fails, stack⟩ := failed
  obtain ⟨i, _, _, stops, _⟩ :=
    (evaluate_keeps_completed_tokens nestedTokens nesting).1 _ after fails
  have second : StopsAt nestedTokens nesting 2 := ⟨"x", _, _, _, rfl, ⟨0, rfl⟩, ⟨4, rfl⟩⟩
  exact ⟨after, fails, (stops 2).mp second ▸ stops, stack⟩

/-- The failure of an operator whose function throws a thing without a text is neither a failed
evaluation nor what was thrown. -/
theorem mute_failure_is_replaced :
    ∃ fault after, Fails [.operator "?"] mumbling fault after ∧
      (∀ cause stack token, fault ≠ .evaluation cause stack token) ∧
      ∀ thrown atThrow,
        Settles (perform · mumble) (mumbling.trace "call mumble") (.error thrown) atThrow →
        fault ≠ thrown := by
  refine ⟨.foreign "TypeError" "Cannot convert object to primitive value", _, ⟨1, rfl⟩, by simp, ?_⟩
  rintro thrown atThrow ⟨fuel, throws⟩ rfl
  cases throws

end Cairn.Machine
