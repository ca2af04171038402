import Cairn.Proofs.Calling
import Cairn.Proofs.DisciplinedRuns

set_option autoImplicit false

/-!
# Call chains

The trace of a core session. As long as nothing fails, the trace only gets the lines of calls. A
failure is caught nowhere, so it unwinds to the end of the run, and on its way it leaves the line of
a rollback for every call that was active when it was raised, innermost first, all with one text.
-/

namespace Cairn

def callLine (name : String) : String := "call " ++ name

def rollbackLine (text name : String) : String := "rollback " ++ name ++ ": " ++ text

namespace Fault

/-- What a failure says, without the place that it was seen at. -/
def gist (fault : Fault) : String := fault.cause?.elim fault.message Cause.message

theorem SameKind.gist {fault fault' : Fault} (same : fault.SameKind fault') :
    fault.gist = fault'.gist := by
  cases caused : fault'.cause? with
  | none => rw [same.foreign caused]
  | some cause => simp [Fault.gist, same.cause, caused]

theorem OfInvocation.message_eq_gist {fault : Fault} (raised : fault.OfInvocation) :
    fault.message = fault.gist := by
  cases fault with
  | reading cause offset => cases raised
  | evaluation cause stack token => cases raised
  | mute label complaint => cases raised
  | _ => rfl

end Fault

namespace Machine

variable {m m' m'' : Machine} {lines lines' : List String}

/-- What is written to the trace between two states of a machine, if it traces. -/
structure Writes (m : Machine) (lines : List String) (m' : Machine) : Prop where
  tracing : m'.tracing = m.tracing
  log : m.tracing = true → m'.log.toList = m.log.toList ++ lines

namespace Writes

theorem nothing (tracing : m'.tracing = m.tracing) (log : m'.log = m.log) : m.Writes [] m' :=
  ⟨tracing, fun _ => by simp [log]⟩

theorem trans (first : m.Writes lines m') (second : m'.Writes lines' m'') :
    m.Writes (lines ++ lines') m'' := by
  refine ⟨second.tracing.trans first.tracing, fun tracing => ?_⟩
  rw [second.log (first.tracing.trans tracing), first.log tracing, List.append_assoc]

theorem trace (m : Machine) (message : String) : m.Writes [message] (m.trace message) := by
  refine ⟨m.trace_tracing message, fun tracing => ?_⟩
  simp [Machine.trace, tracing]

theorem rollback (m : Machine) (name : String) (before : List Value) {fault : Fault}
    (raised : fault.OfInvocation) :
    m.Writes [rollbackLine fault.gist name] (m.rollback name before fault) := by
  have back : m.Writes [] { m with stack := before } := nothing rfl rfl
  unfold Machine.rollback
  rw [raised.text, ← raised.message_eq_gist]
  exact back.trans (trace _ (rollbackLine fault.message name))

end Writes

end Machine

/-- The active calls, innermost first. -/
def Frames.calls : {α : Type} → Frames α → List String
  | _, .top => []
  | _, .operator _ _ outer => outer.calls
  | _, .block outer => outer.calls
  | _, .call name _ outer => name :: outer.calls
  | _, .evaluate _ outer => outer.calls
  | _, .invoke _ outer => outer.calls
  | _, .round _ _ outer => outer.calls

namespace Configuration

variable {α β : Type} {holds : Value → Prop} {origin c c' c'' : Configuration}
  {m m' point : Machine} {frames : Frames α} {inner : Frames β} {fault thrown : Fault}

/-- A failure is on its way. -/
def Failing : Configuration → Prop
  | ⟨.routine (.fail _), _, _⟩ => True
  | _ => False

theorem Failing.exists_fault (failing : c.Failing) :
    ∃ (α : Type) (fault : Fault) (frames : Frames α) (m : Machine),
      c = ⟨.routine (.fail fault), frames, m⟩ := by
  unfold Failing at failing
  split at failing
  next fault frames m => exact ⟨_, fault, frames, m, rfl⟩
  next => exact failing.elim

/-- One configuration leads to another, and nothing fails before that. -/
inductive Proceeds (origin : Configuration) : Configuration → Prop where
  | refl : Proceeds origin origin
  | tail {c c' : Configuration} (proceeds : Proceeds origin c) (stepped : c.step = some c')
      (sound : ¬ c.Failing) : Proceeds origin c'

namespace Proceeds

theorem trans (first : Proceeds c c') (second : Proceeds c' c'') : Proceeds c c'' := by
  induction second with
  | refl => exact first
  | tail _ stepped sound inductionHypothesis => exact inductionHypothesis.tail stepped sound

theorem reaches (proceeds : Proceeds c c') : Reaches c c' := by
  induction proceeds with
  | refl => exact .refl c
  | tail _ stepped _ inductionHypothesis => exact inductionHypothesis.tail stepped

end Proceeds

theorem start_proceeds {source : String} {reading : Reading}
    (readable : m.parse source = .ok reading) :
    Proceeds (start source m) (opened reading.tokens m) := by
  have read := Proceeds.refl.tail (step_start readable) not_false
  exact read.tail rfl not_false

theorem Answers.writes {request : Request} {result : Except Fault request.Reply}
    (answers : Answers m request result m') (modest : request.Modest holds) : m.Writes [] m' := by
  cases answers with
  | trace message => exact modest.elim
  | _ => exact .nothing rfl rfl

/-- A step without a failure writes nothing to the trace, or that a function is called. -/
theorem step_writes (obeys : c.Obeys holds) (sound : ¬ c.Failing) (stepped : c.step = some c') :
    ∃ called : List String, c.machine.Writes (called.map callLine) c'.machine := by
  cases moves_of_step stepped with
  | @call name body m registered outer => exact ⟨[name], .trace m _⟩
  | @resume α result frames m c resumed =>
    cases result with
    | error fault => exact absurd trivial sound
    | ok a =>
      refine ⟨[], ?_⟩
      cases frames with
      | top => cases resumed
      | round again next outer => cases a <;> cases resumed <;> exact .nothing rfl rfl
      | _ =>
        cases resumed
        exact .nothing rfl rfl
  | answer isLocal next outer answers =>
    rcases obeys.work with modest | ⟨_, absurd, _⟩
    · exact ⟨[], answers.writes modest.1⟩
    · cases absurd
  | _ => exact ⟨[], .nothing rfl rfl⟩

/-- A failure that is handed on stays a failure of its kind, and writes what it leaves. -/
theorem resume_fails {fault : Fault} (obeys : Obeys holds ⟨.routine (.fail fault), frames, m⟩)
    (resumed : resume (.error fault) frames m = some c) :
    ∃ (β : Type) (outer : Frames β) (fault' : Fault) (m' : Machine) (left : List String),
      c = ⟨.routine (.fail fault'), outer, m'⟩ ∧ fault'.SameKind fault ∧
        frames.calls = left ++ outer.calls ∧ m.Writes (left.map (rollbackLine fault.gist)) m' := by
  have waiting := obeys.frames
  cases frames with
  | top => cases resumed
  | operator symbol rest outer =>
    cases resumed
    exact ⟨_, outer, _, m, [], rfl, .withToken _ fault, rfl, .nothing rfl rfl⟩
  | block outer =>
    cases resumed
    exact ⟨_, outer, _, m, [], rfl, .withToken _ fault, rfl, .nothing rfl rfl⟩
  | call name before outer =>
    cases resumed
    have raised := obeys.ofInvocation rfl
    exact ⟨_, outer, _, _, [name], rfl, .leaving _ raised.voiced, rfl,
      .rollback m name before raised⟩
  | evaluate next outer =>
    cases resumed
    refine ⟨_, outer, fault, m, [], ?_, .refl fault, rfl, .nothing rfl rfl⟩
    rw [waiting.1]
  | invoke next outer =>
    cases resumed
    refine ⟨_, outer, _, m, [], ?_, .bareCause fault, rfl, .nothing rfl rfl⟩
    rw [Except.mapError, waiting.1]
  | round again next outer =>
    cases resumed
    refine ⟨_, outer, fault, m, [], ?_, .refl fault, rfl, .nothing rfl rfl⟩
    rw [waiting.2.1]

/-- A failure has unwound from the point where it was raised: it has left the innermost calls that
were active there, each with the line of its rollback. -/
inductive Unwound (thrown : Fault) (inner : Frames β) (point : Machine) : Configuration → Prop where
  | mk {α : Type} {frames : Frames α} {fault : Fault} {m : Machine} (left : List String)
      (kind : fault.SameKind thrown) (active : inner.calls = left ++ frames.calls)
      (writes : point.Writes (left.map (rollbackLine thrown.gist)) m) :
      Unwound thrown inner point ⟨.routine (.fail fault), frames, m⟩

namespace Unwound

theorem refl (thrown : Fault) (inner : Frames β) (point : Machine) :
    Unwound thrown inner point ⟨.routine (.fail thrown), inner, point⟩ :=
  .mk [] (.refl thrown) rfl (.nothing rfl rfl)

theorem step (unwound : Unwound thrown inner point c) (obeys : c.Obeys holds)
    (stepped : c.step = some c') : Unwound thrown inner point c' := by
  obtain ⟨left, kind, active, writes⟩ := unwound
  obtain ⟨_, outer, fault', m', more, rfl, kind', active', writes'⟩ := resume_fails obeys stepped
  refine .mk (left ++ more) (kind'.trans kind) ?_ ?_
  · rw [active, active', List.append_assoc]
  · rw [kind.gist] at writes'
    rw [List.map_append]
    exact writes.trans writes'

theorem reaches [Value.Closed holds] (unwound : Unwound thrown inner point c)
    (obeys : c.Obeys holds) (reached : Reaches c c') : Unwound thrown inner point c' := by
  refine reached.preserves_obeying ?_ obeys unwound
  intro before after obeys unwound stepped
  exact unwound.step obeys stepped

end Unwound

/-- What the trace tells at a point of a run: nothing failed yet and only calls were written, or a
failure has unwound from a point where that was so. -/
inductive Ledger (origin : Configuration) : Configuration → Prop where
  | calling {c : Configuration} (called : List String) (proceeds : Proceeds origin c)
      (writes : origin.machine.Writes (called.map callLine) c.machine) : Ledger origin c
  | unwinding {β : Type} {thrown : Fault} {inner : Frames β} {point : Machine} {c : Configuration}
      (called : List String) (proceeds : Proceeds origin ⟨.routine (.fail thrown), inner, point⟩)
      (writes : origin.machine.Writes (called.map callLine) point)
      (unwound : Unwound thrown inner point c) : Ledger origin c

namespace Ledger

theorem calls_of_sound (ledger : Ledger origin c) (sound : ¬ c.Failing) :
    Proceeds origin c ∧
      ∃ called : List String, origin.machine.Writes (called.map callLine) c.machine := by
  cases ledger with
  | calling called proceeds writes => exact ⟨proceeds, called, writes⟩
  | unwinding called proceeds writes unwound =>
    obtain ⟨left, kind, active, writes'⟩ := unwound
    exact absurd trivial sound

/-- A failure that is on its way was raised somewhere. -/
theorem exists_point (ledger : Ledger origin c) (failing : c.Failing) :
    ∃ (β : Type) (thrown : Fault) (inner : Frames β) (point : Machine) (called : List String),
      Proceeds origin ⟨.routine (.fail thrown), inner, point⟩ ∧
        origin.machine.Writes (called.map callLine) point ∧ Unwound thrown inner point c := by
  cases ledger with
  | calling called proceeds writes =>
    obtain ⟨α, fault, frames, m, rfl⟩ := failing.exists_fault
    exact ⟨α, fault, frames, m, called, proceeds, writes, .refl fault frames m⟩
  | unwinding called proceeds writes unwound =>
    exact ⟨_, _, _, _, called, proceeds, writes, unwound⟩

theorem step (ledger : Ledger origin c) (obeys : c.Obeys holds) (stepped : c.step = some c') :
    Ledger origin c' := by
  by_cases failing : c.Failing
  · obtain ⟨_, _, _, _, called, proceeds, writes, unwound⟩ := ledger.exists_point failing
    exact .unwinding called proceeds writes (unwound.step obeys stepped)
  · obtain ⟨proceeds, called, writes⟩ := ledger.calls_of_sound failing
    obtain ⟨more, writes'⟩ := step_writes obeys failing stepped
    refine .calling (called ++ more) (proceeds.tail stepped failing) ?_
    rw [List.map_append]
    exact writes.trans writes'

end Ledger

theorem Reaches.ledger [Value.Closed holds] (reached : Reaches origin c)
    (obeys : origin.Obeys holds) : Ledger origin c := by
  refine reached.preserves_obeying ?_ obeys (.calling [] .refl (.nothing rfl rfl))
  intro before after obeys ledger stepped
  exact ledger.step obeys stepped

/-- A run that ends passes through every point on its way. -/
theorem Reaches.of_ended (first : Reaches c c') (second : Reaches c c'') (ended : c''.step = none) :
    Reaches c' c'' := by
  obtain ⟨n, first⟩ := first
  obtain ⟨k, second⟩ := second
  rcases Nat.lt_or_ge k n with less | le
  · exact absurd (Lasts.of_le less ⟨c', first⟩) (not_lasts_of_ended second ended)
  · obtain ⟨d, rfl⟩ := Nat.exists_eq_add_of_le le
    rw [advance_add, first] at second
    exact ⟨d, second⟩

/-- When a run has ended in a failure, every call that was active where the failure was raised has
been rolled back. -/
theorem Unwound.rolledBack [Value.Closed holds] (unwound : Unwound thrown inner point c)
    (obeys : origin.Obeys holds) (reached : Reaches origin c)
    (ended : Reaches origin (ending (.top : Frames α) (.error fault) m)) :
    fault.SameKind thrown ∧ point.Writes (inner.calls.map (rollbackLine fault.gist)) m := by
  have through := unwound.reaches (reached.obeys obeys)
    (reached.of_ended ended (step_ending_top _ _))
  obtain ⟨left, kind, active, writes⟩ := through
  rw [kind.gist, active, Frames.calls, List.append_nil]
  exact ⟨kind, writes⟩

end Configuration

namespace Machine

open Cairn.Configuration

variable {m m' middle : Machine}

/-- Tokens that succeed lead on to the tokens after them. -/
theorem Succeeds.reaches {tokens : List Value} (success : Succeeds tokens m middle)
    (rest : List Value) (frames : Frames Unit) :
    Reaches ⟨.tokens (tokens ++ rest), frames, m⟩ ⟨.tokens rest, frames, middle⟩ := by
  obtain ⟨fuel, ran⟩ := success
  replace ran : evaluateWith (exec fuel) tokens m = .done () middle := ran
  fun_induction evaluateWith (exec fuel) tokens m with
  | case1 m =>
    cases ran
    exact .refl _
  | case2 symbol later m token absent => cases ran
  | case3 symbol later m name present _ m' called inductionHypothesis =>
    have delivers := exec_agrees fuel (.function name) m (.operator symbol (later ++ rest) frames)
    rw [called] at delivers
    exact .head (step_operator present _ frames)
      (.trans delivers (.head rfl (inductionHypothesis ran)))
  | case4 symbol later m token name present fault m' called => cases ran
  | case5 symbol later m name present called => cases ran
  | case6 value later m literal inductionHypothesis =>
    exact .head (step_literal literal _ frames m) (inductionHypothesis ran)

/-- A run that fails after its text was read comes to an operator of the text that fails. -/
theorem exists_failing_operator {source : String} {cause : Cause} {stack : List Value}
    {token : Option Value}
    (ran : Settles (run · source) m (.error (.evaluation cause stack token)) m') :
    ∃ reading symbol rest middle, m.parse source = .ok reading ∧
      Reaches (opened reading.tokens m) (opened (.operator symbol :: rest) middle) ∧
      Fails [.operator symbol] middle (.evaluation cause stack token) m' := by
  cases readable : m.parse source with
  | error fault =>
    obtain ⟨_, _, rfl⟩ := parse_fault readable
    cases (run_settles_of_unreadable readable ran).1
  | ok reading =>
    have fails : Fails reading.tokens m _ m' := (run_settles_iff_evaluate readable).mp ran
    obtain ⟨before, symbol, rest, middle, tokens, success, failure⟩ := fails.exists_operator
    refine ⟨reading, symbol, rest, middle, rfl, ?_, failure⟩
    rw [tokens]
    exact success.reaches (.operator symbol :: rest) _

/-- A function that an operator calls leads to what it throws. -/
theorem reaches_throw {symbol name : String} {body : Routine Unit} {thrown : Fault}
    {atThrow : Machine} (bound : middle.operators.find? symbol = some name)
    (registered : middle.functions.find? name = some body)
    (throws : Settles (perform · body) (middle.trace ("call " ++ name)) (.error thrown) atThrow)
    (rest : List Value) :
    Reaches (opened (.operator symbol :: rest) middle) ⟨.routine (.fail thrown),
      .call name middle.stack (.operator symbol rest (.evaluate Routine.ofExcept .top)),
      atThrow⟩ := by
  have inside := throws.reaches (fun fuel => perform_agrees fuel body _)
    (.call name middle.stack (.operator symbol rest (.evaluate Routine.ofExcept .top)))
  exact .head (step_operator bound rest _) (.head (step_call registered _) inside)

/-- An operator that fails: the point where its failure was raised, the calls that were active
there, and the lines that are written before and after. -/
theorem Fails.exists_point {holds : Value → Prop} [Value.Closed holds] {symbol name : String}
    {rest : List Value} {fault : Fault} (failure : Fails [.operator symbol] middle fault m')
    (bound : middle.operators.find? symbol = some name)
    (obeys : (opened (.operator symbol :: rest) middle).Obeys holds) :
    ∃ (β : Type) (thrown : Fault) (inner : Frames β) (point : Machine) (called : List String),
      Proceeds (opened (.operator symbol :: rest) middle)
        ⟨.routine (.fail thrown), inner, point⟩ ∧
      middle.Writes (called.map callLine) point ∧ fault.SameKind thrown ∧
      inner.calls.getLast? = (if middle.knows name then some name else none) ∧
      point.Writes (inner.calls.map (rollbackLine fault.gist)) m' := by
  have fails : Fails ([.operator symbol] ++ rest) middle fault m' :=
    fails_append_iff.mpr (.inl failure)
  have ended : Reaches (opened (.operator symbol :: rest) middle)
      (ending .top (.error fault) m') :=
    (fails.reaches (fun fuel => evaluate_agrees fuel _ middle)
      (.evaluate Routine.ofExcept .top)).tail rfl
  have called := step_operator bound rest (.evaluate Routine.ofExcept .top)
  cases registered : middle.functions.find? name with
  | none =>
    have proceeds : Proceeds (opened (.operator symbol :: rest) middle)
        ⟨.routine (.fail (.evaluation (.unknownFunction name) middle.stack none)),
          .operator symbol rest (.evaluate Routine.ofExcept .top), middle⟩ := by
      refine (Proceeds.refl.tail called not_false).tail ?_ not_false
      simp only [step, registered]
    obtain ⟨kind, writes⟩ := (Unwound.refl _ _ _).rolledBack obeys proceeds.reaches ended
    refine ⟨_, _, _, _, [], proceeds, .nothing rfl rfl, kind, ?_, writes⟩
    simp [Frames.calls, knows, Table.contains_eq_isSome, registered]
  | some body =>
    obtain ⟨raised, atThrow, throws, _⟩ :=
      (evaluate_operator_fails_iff registered bound).mp failure
    have reached := reaches_throw bound registered throws rest
    obtain ⟨β, thrown, inner, point, names, proceeds, before, unwound⟩ :=
      (reached.ledger obeys).exists_point trivial
    obtain ⟨kind, writes⟩ := unwound.rolledBack obeys reached ended
    refine ⟨β, thrown, inner, point, names, proceeds, before, kind, ?_, writes⟩
    obtain ⟨left, _, active, _⟩ := unwound
    simp [active, Frames.calls, knows, Table.contains_eq_isSome, registered]

instance : Value.Closed fun _ => True where
  string _ := trivial
  number _ := trivial
  boolean _ := trivial
  body _ _ _ _ := trivial
  reading _ _ _ := trivial

end Machine

end Cairn
