import Cairn.Proofs.PrintedNumbers

set_option autoImplicit false

/-!
# Depth addressing

The values of a stack are addressed by numbers, from the top down. A number addresses a place when
it is whole, not negative and below the depth; every other number is refused, and nothing changes. A
place holds what was stored there last. The words that read and write at a depth make such an access
on the stack below their arguments.
-/

namespace Cairn

/-- A number stands for a place on a stack of the given depth. Both zeros stand for the top; what is
not finite stands for no place. -/
structure Addresses (index : Float) (i depth : Nat) : Prop where
  value : Number.value? index = some (i : ℚ)
  below : i < depth

theorem Addresses.unique {index : Float} {i j depth : Nat} (first : Addresses index i depth)
    (second : Addresses index j depth) : i = j := by
  exact_mod_cast Option.some.inj (first.value.symm.trans second.value)

/-- A read or a write at a depth, with the number that is given for the depth. -/
inductive Access where
  | read (index : Float)
  | write (index : Float) (value : Value)

namespace Access

def index : Access → Float
  | .read index | .write index _ => index

/-- The access as a request to a machine. A read answers the value. -/
def make : Access → Routine (Option Value)
  | .read index => return some (← Routine.valueAt index)
  | .write index value => do
    Routine.storeAt index value
    return none

/-- Makes accesses in turn, also after some were refused, and answers how each of them ended. -/
def makeAll : List Access → Routine (List (Except Fault (Option Value)))
  | [] => return []
  | access :: later => do
    let reply ← access.make.attempt
    return reply :: (← makeAll later)

/-- What an access does to a stack: its answer and the stack afterwards. -/
inductive Effect (stack : List Value) : Access → Option Value → List Value → Prop
  | read {index : Float} {i : Nat} {v : Value} (inside : Addresses index i stack.length)
      (present : stack[i]? = some v) : Effect stack (.read index) (some v) stack
  | write {index : Float} {i : Nat} (v : Value) (inside : Addresses index i stack.length) :
      Effect stack (.write index v) none (stack.set i v)

/-- The number of an access addresses no place of a stack. -/
def Outside (access : Access) (stack : List Value) : Prop :=
  ∀ i, ¬ Addresses access.index i stack.length

/-- The complaint about an access that is refused. -/
def refusal (access : Access) (stack : List Value) : Cause :=
  .outOfBounds access.index stack.length

/-- None of the accesses writes to a place of a stack with the given depth. -/
def Spares (depth i : Nat) (accesses : List Access) : Prop :=
  ∀ index v, Access.write index v ∈ accesses → ¬ Addresses index i depth

/-- What a place of a stack holds after accesses: the value that was written there last, or the
original one. -/
inductive Holds (original : List Value) (i : Nat) : List Access → Value → Prop
  | original {accesses : List Access} {v : Value} (present : original[i]? = some v)
      (spared : Spares original.length i accesses) : Holds original i accesses v
  | written {before later : List Access} {index : Float} {v : Value}
      (inside : Addresses index i original.length) (spared : Spares original.length i later) :
      Holds original i (before ++ .write index v :: later) v

/-- How an access ends that is made after others. -/
inductive Answered (original : List Value) (before : List Access) :
    Access → Except Fault (Option Value) → Prop
  | refused {access : Access} (outside : access.Outside original) :
      Answered original before access (.error (.language (access.refusal original)))
  | read {index : Float} {i : Nat} {v : Value} (inside : Addresses index i original.length)
      (holds : Holds original i before v) : Answered original before (.read index) (.ok (some v))
  | written {index : Float} {i : Nat} (v : Value) (inside : Addresses index i original.length) :
      Answered original before (.write index v) (.ok none)

/-- How accesses end that are made in turn after others. -/
inductive AllAnswered (original : List Value) :
    (before : List Access) → List Access → List (Except Fault (Option Value)) → Prop
  | nil (before : List Access) : AllAnswered original before [] []
  | cons {before later : List Access} {access : Access} {reply : Except Fault (Option Value)}
      {replies : List (Except Fault (Option Value))} (first : Answered original before access reply)
      (others : AllAnswered original (before ++ [access]) later replies) :
      AllAnswered original before (access :: later) (reply :: replies)

variable {original stack stack' : List Value} {before : List Access} {access : Access}
  {reply : Option Value} {i : Nat} {v : Value}

theorem Effect.length (effect : Effect stack access reply stack') :
    stack'.length = stack.length := by
  cases effect with
  | read => rfl
  | write v inside => exact List.length_set

theorem Effect.addresses (effect : Effect stack access reply stack') :
    ∃ i, Addresses access.index i stack.length := by
  cases effect with
  | read inside => exact ⟨_, inside⟩
  | write v inside => exact ⟨_, inside⟩

theorem Effect.unique {reply' : Option Value} {last : List Value}
    (first : Effect stack access reply stack') (second : Effect stack access reply' last) :
    reply = reply' ∧ stack' = last := by
  cases first with
  | read inside present =>
    cases second with
    | read inside' present' =>
      cases inside.unique inside'
      exact ⟨present.symm.trans present', rfl⟩
  | write v inside =>
    cases second with
    | write _ inside' =>
      cases inside.unique inside'
      exact ⟨rfl, rfl⟩

theorem Holds.snoc (holds : Holds original i before v)
    (spared : Spares original.length i [access]) : Holds original i (before ++ [access]) v := by
  have both : ∀ {later}, Spares original.length i later →
      Spares original.length i (later ++ [access]) := by
    intro later earlier index v member
    rcases List.mem_append.mp member with old | last
    · exact earlier index v old
    · exact spared index v last
  cases holds with
  | original present earlier => exact .original present (both earlier)
  | written inside earlier =>
    rw [List.append_assoc, List.cons_append]
    exact .written inside (both earlier)

theorem Spares.eq_of_split {depth : Nat} {later later' middle : List Access} {x y : Float}
    {v w : Value} (same : Access.write x v :: later = middle ++ .write y w :: later')
    (spared : Spares depth i later) (inside : Addresses y i depth) : v = w := by
  cases middle with
  | nil =>
    cases same
    rfl
  | cons first middle =>
    obtain ⟨-, rfl⟩ := List.cons.inj same
    exact absurd inside (spared y w (by simp))

/-- A place holds one value. -/
theorem Holds.unique {w : Value} (first : Holds original i before v)
    (second : Holds original i before w) : v = w := by
  cases first with
  | original present spared =>
    cases second with
    | original present' => exact Option.some.inj (present.symm.trans present')
    | written inside => exact absurd inside (spared _ w (by simp))
  | @written earlier later x _ inside spared =>
    generalize same : earlier ++ .write x v :: later = accesses at second
    cases second with
    | original present spared' => exact absurd inside (spared' x v (by simp [← same]))
    | written inside' spared' =>
      rcases List.append_eq_append_iff.mp same with ⟨middle, -, split⟩ | ⟨middle, -, split⟩
      · exact spared.eq_of_split split inside'
      · exact (spared'.eq_of_split split inside).symm

theorem Holds.lt (holds : Holds original i before v) : i < original.length := by
  cases holds with
  | original present => exact (List.getElem?_eq_some_iff.mp present).1
  | written inside => exact inside.below

/-- A stack on which the accesses so far were made. -/
structure Reflects (original : List Value) (before : List Access) (stack : List Value) : Prop where
  length : stack.length = original.length
  holds : ∀ i v, stack[i]? = some v → Holds original i before v

theorem reflects_nil (original : List Value) : Reflects original [] original where
  length := rfl
  holds i v present := .original present (by simp [Spares])

theorem Reflects.refused (reflects : Reflects original before stack)
    (outside : access.Outside stack) :
    Reflects original (before ++ [access]) stack := by
  refine ⟨reflects.length, fun i v present => (reflects.holds i v present).snoc ?_⟩
  intro index w member addresses
  rw [List.mem_singleton] at member
  subst member
  exact outside i (reflects.length ▸ addresses)

/-- An access changes the place that it writes to and no other. -/
theorem Reflects.effect (reflects : Reflects original before stack)
    (effect : Effect stack access reply stack') :
    Reflects original (before ++ [access]) stack' := by
  refine ⟨effect.length.trans reflects.length, fun i v present => ?_⟩
  cases effect with
  | read inside seen =>
    exact (reflects.holds i v present).snoc (by simp [Spares])
  | @write index j w inside =>
    have addresses : Addresses index j original.length := reflects.length ▸ inside
    by_cases same : j = i
    · subst same
      rw [List.getElem?_set_self inside.below] at present
      cases present
      exact .written addresses (by simp [Spares])
    · rw [List.getElem?_set_ne same] at present
      refine (reflects.holds i v present).snoc fun index' w' member addresses' => same ?_
      cases List.mem_singleton.mp member
      exact addresses.unique addresses'

theorem Reflects.getElem?_eq_some_iff (reflects : Reflects original before stack) :
    stack[i]? = some v ↔ Holds original i before v := by
  refine ⟨reflects.holds i v, fun holds => ?_⟩
  have present := List.getElem?_eq_getElem (reflects.length ▸ holds.lt)
  rw [present, (reflects.holds i _ present).unique holds]

theorem Reflects.answered (reflects : Reflects original before stack)
    (effect : Effect stack access reply stack') :
    Answered original before access (.ok reply) := by
  cases effect with
  | read inside present => exact .read (reflects.length ▸ inside) (reflects.holds _ _ present)
  | write v inside => exact .written v (reflects.length ▸ inside)

theorem Reflects.answered_refused (reflects : Reflects original before stack)
    (outside : access.Outside stack) :
    Answered original before access (.error (.language (access.refusal stack))) := by
  rw [refusal, reflects.length]
  refine .refused fun i addresses => ?_
  exact outside i (reflects.length ▸ addresses)

end Access

namespace Machine

open Access

variable {m after : Machine} {access : Access} {index : Float} {depth i : Nat}

theorem place?_eq_some_iff : place? index depth = some i ↔ Addresses index i depth := by
  rw [place?_eq_position?, StackEffect.position?_eq_some_iff]
  exact ⟨fun ⟨value, below⟩ => ⟨value, below⟩, fun ⟨value, below⟩ => ⟨value, below⟩⟩

theorem place?_eq_none_iff : place? index depth = none ↔ ∀ i, ¬ Addresses index i depth := by
  simp only [Option.eq_none_iff_forall_ne_some, ne_eq, place?_eq_some_iff]

/-- An access is made, or it is refused and nothing changes. -/
theorem perform_make (fuel : Nat) (access : Access) (m : Machine) :
    (∃ reply stack, access.Effect m.stack reply stack ∧
      perform fuel access.make m = .done reply { m with stack }) ∨
    access.Outside m.stack ∧
      perform fuel access.make m = .failed (.language (access.refusal m.stack)) m := by
  cases access with
  | read index =>
    have asked : perform fuel (Routine.valueAt index) m =
        .ofExcept m ((m.valueAt index).map (·, m)) := by
      rw [Routine.valueAt, perform_ask, respond]
    have made : perform fuel (Access.read index).make m =
        (perform fuel (Routine.valueAt index) m).bind fun v => .done (some v) :=
      perform_bind ..
    cases place : place? index m.stack.length with
    | some i =>
      have inside := place?_eq_some_iff.mp place
      obtain ⟨v, present⟩ : ∃ v, m.stack[i]? = some v :=
        ⟨_, List.getElem?_eq_getElem inside.below⟩
      have found : m.valueAt index = .ok v := valueAt_eq_ok.mpr ⟨i, place, present⟩
      refine .inl ⟨_, _, .read inside present, ?_⟩
      rw [made, asked, found]
      rfl
    | none =>
      have missed : m.valueAt index = .error (m.outOfBounds index) := by
        rw [valueAt, place]
        rfl
      refine .inr ⟨place?_eq_none_iff.mp place, ?_⟩
      rw [made, asked, missed]
      rfl
  | write index v =>
    have asked : perform fuel (Routine.storeAt index v) m =
        .ofExcept m ((m.storeAt index v).map ((), ·)) := by
      rw [Routine.storeAt, perform_ask, respond]
    have made : perform fuel (Access.write index v).make m =
        (perform fuel (Routine.storeAt index v) m).bind fun _ => .done none :=
      perform_bind ..
    cases place : place? index m.stack.length with
    | some i =>
      refine .inl ⟨_, _, .write v (place?_eq_some_iff.mp place), ?_⟩
      rw [made, asked, storeAt, place]
      rfl
    | none =>
      refine .inr ⟨place?_eq_none_iff.mp place, ?_⟩
      rw [made, asked, storeAt, place]
      rfl

theorem perform_make_done_iff {fuel : Nat} {reply : Option Value} :
    perform fuel access.make m = .done reply after ↔
      ∃ stack, access.Effect m.stack reply stack ∧ after = { m with stack } := by
  rcases perform_make fuel access m with ⟨reply', stack, effect, ran⟩ | ⟨outside, ran⟩
  · rw [ran, Outcome.done.injEq]
    constructor
    · rintro ⟨rfl, rfl⟩
      exact ⟨stack, effect, rfl⟩
    · rintro ⟨stack', effect', rfl⟩
      obtain ⟨rfl, rfl⟩ := effect.unique effect'
      exact ⟨rfl, rfl⟩
  · rw [ran]
    constructor
    · rintro ⟨⟩
    · rintro ⟨stack, effect, rfl⟩
      obtain ⟨i, inside⟩ := effect.addresses
      exact absurd inside (outside i)

theorem perform_make_failed_iff {fuel : Nat} {fault : Fault} :
    perform fuel access.make m = .failed fault after ↔
      access.Outside m.stack ∧ fault = .language (access.refusal m.stack) ∧ after = m := by
  rcases perform_make fuel access m with ⟨reply, stack, effect, ran⟩ | ⟨outside, ran⟩
  · rw [ran]
    constructor
    · rintro ⟨⟩
    · rintro ⟨outside, -⟩
      obtain ⟨i, inside⟩ := effect.addresses
      exact absurd inside (outside i)
  · rw [ran, Outcome.failed.injEq]
    constructor
    · rintro ⟨rfl, rfl⟩
      exact ⟨outside, rfl, rfl⟩
    · rintro ⟨-, rfl, rfl⟩
      exact ⟨rfl, rfl⟩

/-- Accesses made in turn, on a stack on which others were made before. -/
theorem perform_makeAll {original : List Value} {before : List Access}
    (reflects : Reflects original before m.stack) (fuel : Nat) (later : List Access) :
    ∃ replies stack, perform fuel (makeAll later) m = .done replies { m with stack } ∧
      Reflects original (before ++ later) stack ∧ AllAnswered original before later replies := by
  induction later generalizing before m with
  | nil => exact ⟨[], m.stack, rfl, by simpa using reflects, .nil before⟩
  | cons access later inductionHypothesis =>
    have opened : perform fuel (makeAll (access :: later)) m =
        (perform fuel access.make m).andThen fun reply m' =>
          (perform fuel (makeAll later) m').bind fun replies => .done (reply :: replies) := by
      refine (perform_attempt_bind ..).trans ?_
      congr 1
      funext reply m'
      exact perform_bind fuel (makeAll later) _ m'
    rw [opened, List.append_cons]
    rcases perform_make fuel access m with ⟨reply, stack, effect, ran⟩ | ⟨outside, ran⟩
    · obtain ⟨replies, last, ran', reflects', answered⟩ :=
        inductionHypothesis (m := { m with stack }) (reflects.effect effect)
      refine ⟨.ok reply :: replies, last, ?_, reflects', .cons (reflects.answered effect) answered⟩
      rw [ran, Outcome.andThen, ran', Outcome.bind]
    · obtain ⟨replies, last, ran', reflects', answered⟩ :=
        inductionHypothesis (reflects.refused outside)
      refine ⟨_ :: replies, last, ?_, reflects',
        .cons (reflects.answered_refused outside) answered⟩
      rw [ran, Outcome.andThen, ran', Outcome.bind]

end Machine

namespace Access

/-- The word that makes an access. -/
def word : Access → Routine Unit
  | .read _ => Core.pick
  | .write .. => Core.put

/-- What has to lie on the stack for the word, the top last. -/
def arguments : Access → List Value
  | .read index => [.number index]
  | .write index v => [v, .number index]

end Access

namespace Machine

open Access

variable {m after : Machine} {access : Access} {symbol name : String} {fault : Fault}

/-- A word makes its access on the stack below its arguments and leaves the answer there. -/
theorem perform_word (fuel : Nat) (access : Access) (m : Machine) :
    perform fuel access.word (m.pushAll access.arguments) =
      (perform fuel access.make m).bind fun reply m' => .done () (m'.pushAll reply.toList) := by
  have index : ∀ x, Demand.number.receive (.number x) = .ok x := fun _ => rfl
  cases access with
  | read x =>
    have popped : perform fuel Core.pick (m.pushAll [.number x]) =
        perform fuel (Routine.valueAt x >>= fun v => Routine.push v) m :=
      runWith_pop_bind_push (index x) ..
    refine popped.trans ?_
    rw [make, perform_bind, perform_bind]
    cases perform fuel (Routine.valueAt x) m <;> rfl
  | write x v =>
    have value : Demand.value.receive v = .ok v := rfl
    have popped : perform fuel Core.put (m.pushAll [v, .number x]) =
        perform fuel (Routine.storeAt x v) m :=
      (runWith_pop_bind_push (index x) _ fuel
        (fun x => Routine.pop >>= fun v => Routine.storeAt x v) (m.push v)).trans
        (runWith_pop_bind_push value ..)
    refine popped.trans ?_
    rw [make, perform_bind]
    cases perform fuel (Routine.storeAt x v) m <;> rfl

theorem word_settles_ok_iff :
    Settles (perform · access.word) (m.pushAll access.arguments) (.ok ()) after ↔
      ∃ reply stack, access.Effect m.stack reply stack ∧
        after = { m with stack := reply.toList ++ stack } := by
  have answered : ∀ {reply : Option Value} {stack},
      pushAll { m with stack } reply.toList = { m with stack := reply.toList ++ stack } := by
    rintro (_ | v) stack <;> rfl
  constructor
  · rintro ⟨fuel, ran⟩
    replace ran : perform fuel access.word (m.pushAll access.arguments) = .done () after := ran
    rw [perform_word] at ran
    rcases perform_make fuel access m with ⟨reply, stack, effect, made⟩ | ⟨-, made⟩
    · rw [made, Outcome.bind, answered, Outcome.done.injEq] at ran
      exact ⟨reply, stack, effect, ran.2.symm⟩
    · rw [made] at ran
      cases ran
  · rintro ⟨reply, stack, effect, rfl⟩
    refine ⟨0, ?_⟩
    change perform 0 access.word (m.pushAll access.arguments) = .done () _
    rw [perform_word, perform_make_done_iff.mpr ⟨stack, effect, rfl⟩, Outcome.bind, answered]

theorem word_settles_error_iff :
    Settles (perform · access.word) (m.pushAll access.arguments) (.error fault) after ↔
      access.Outside m.stack ∧ fault = .language (access.refusal m.stack) ∧ after = m := by
  constructor
  · rintro ⟨fuel, ran⟩
    replace ran : perform fuel access.word (m.pushAll access.arguments) = .failed fault after := ran
    rw [perform_word] at ran
    rcases perform_make fuel access m with ⟨_, _, -, made⟩ | ⟨outside, made⟩
    · rw [made] at ran
      cases ran
    · rw [made, Outcome.bind, Outcome.failed.injEq] at ran
      exact ⟨outside, ran.1.symm, ran.2.symm⟩
  · rintro ⟨outside, rfl, rfl⟩
    refine ⟨0, ?_⟩
    change perform 0 access.word _ = .failed _ _
    rw [perform_word, perform_make_failed_iff.mpr ⟨outside, rfl, rfl⟩, Outcome.bind]

section Called

variable (known : m.operators.find? symbol = some name)
  (registered : m.functions.find? name = some access.word)

include known registered

theorem word_succeeds_iff :
    Succeeds [.operator symbol] (m.pushAll access.arguments) after ↔
      ∃ reply stack, access.Effect m.stack reply stack ∧
        after = { m.trace ("call " ++ name) with stack := reply.toList ++ stack } := by
  have called : Succeeds [.operator symbol] (m.pushAll access.arguments) after ↔
      Settles (perform · access.word) ((m.trace ("call " ++ name)).pushAll access.arguments)
        (.ok ()) after := by
    rw [← trace_pushAll]
    exact evaluate_operator_succeeds_iff registered known
  rw [called, word_settles_ok_iff, trace_stack]

theorem word_fails_iff :
    Fails [.operator symbol] (m.pushAll access.arguments) fault after ↔
      access.Outside m.stack ∧
        fault = .evaluation (access.refusal m.stack) m.stack (some (.operator symbol)) ∧
        RolledBack name (.language (access.refusal m.stack)) (m.pushAll access.arguments)
          (m.trace ("call " ++ name)) after := by
  have called : Fails [.operator symbol] (m.pushAll access.arguments) fault after ↔
      FailedCall (m.pushAll access.arguments) name access.word
        (.evaluation · · (some (.operator symbol))) fault after :=
    evaluate_operator_fails_iff registered known
  rw [called, FailedCall, trace_pushAll]
  simp only [word_settles_error_iff, trace_stack]
  constructor
  · rintro ⟨thrown, atThrow, ⟨outside, rfl, rfl⟩, rolledBack, rfl⟩
    refine ⟨outside, ?_, rolledBack⟩
    rw [trace_stack]
    rfl
  · rintro ⟨outside, rfl, rolledBack⟩
    refine ⟨_, _, ⟨outside, rfl, rfl⟩, rolledBack, ?_⟩
    rw [trace_stack]
    rfl

theorem application_succeeds_iff (plain : Literals access.arguments) :
    Succeeds (access.arguments ++ [.operator symbol]) m after ↔
      ∃ reply stack, access.Effect m.stack reply stack ∧
        after = { m.trace ("call " ++ name) with stack := reply.toList ++ stack } :=
  (settles_application_iff plain).trans (word_succeeds_iff known registered)

end Called

section WriteThenRead

variable {put pick writer reader : String} {v : Value} {x : Float}

/-- A value that is written at a depth and read from there comes to lie on top. -/
theorem write_read_succeeds_iff (writes : m.operators.find? put = some writer)
    (writerRegistered : m.functions.find? writer = some Core.put)
    (reads : m.operators.find? pick = some reader)
    (readerRegistered : m.functions.find? reader = some Core.pick)
    (literal : ∀ symbol, v ≠ .operator symbol) :
    Succeeds [v, .number x, .operator put, .number x, .operator pick] m after ↔
      ∃ i, Addresses x i m.stack.length ∧
        after = { (m.trace ("call " ++ writer)).trace ("call " ++ reader) with
          stack := v :: m.stack.set i v } := by
  have split : [v, .number x, .operator put, .number x, .operator pick] =
      ((Access.write x v).arguments ++ [.operator put]) ++
        ((Access.read x).arguments ++ [.operator pick]) := rfl
  have plainWrite : Literals (Access.write x v).arguments := by
    simpa [Literals, arguments] using literal
  have plainRead : Literals (Access.read x).arguments := by simp [Literals, arguments]
  have write : ∀ middle, Succeeds ((Access.write x v).arguments ++ [.operator put]) m middle ↔
      ∃ reply stack, (Access.write x v).Effect m.stack reply stack ∧
        middle = { m.trace ("call " ++ writer) with stack := reply.toList ++ stack } :=
    fun middle => application_succeeds_iff writes writerRegistered plainWrite
  -- The machine in between has the tables of the one before, so the second word is known to it.
  have read : ∀ stack, Succeeds ((Access.read x).arguments ++ [.operator pick])
        { m.trace ("call " ++ writer) with stack } after ↔
      ∃ reply last, (Access.read x).Effect stack reply last ∧
        after = { (m.trace ("call " ++ writer)).trace ("call " ++ reader) with
          stack := reply.toList ++ last } := by
    intro stack
    have reads' : ({ m.trace ("call " ++ writer) with stack } : Machine).operators.find? pick =
        some reader := by
      rwa [trace_operators]
    have readerRegistered' : ({ m.trace ("call " ++ writer) with stack } :
        Machine).functions.find? reader = some (Access.read x).word := by
      rwa [trace_functions]
    have traced : ({ m.trace ("call " ++ writer) with stack } : Machine).trace ("call " ++ reader) =
        { (m.trace ("call " ++ writer)).trace ("call " ++ reader) with stack } :=
      trace_withStack ..
    rw [application_succeeds_iff reads' readerRegistered' plainRead, traced]
  rw [split, succeeds_append_iff]
  constructor
  · rintro ⟨middle, first, second⟩
    obtain ⟨_, _, effect, rfl⟩ := (write middle).mp first
    cases effect with
    | @write _ i _ inside =>
      obtain ⟨_, _, effect, rfl⟩ := (read (m.stack.set i v)).mp second
      cases effect with
      | read again present =>
        rw [List.length_set] at again
        cases inside.unique again
        rw [List.getElem?_set_self inside.below] at present
        cases present
        exact ⟨i, inside, rfl⟩
  · rintro ⟨i, inside, rfl⟩
    have still : Addresses x i (m.stack.set i v).length := by rwa [List.length_set]
    have written : (m.stack.set i v)[i]? = some v := List.getElem?_set_self inside.below
    refine ⟨_, (write _).mpr ⟨none, m.stack.set i v, .write v inside, rfl⟩, ?_⟩
    exact (read _).mpr ⟨some v, m.stack.set i v, .read still written, rfl⟩

end WriteThenRead

/-- Accesses to places succeed exactly with the numbers of the places below the depth, and after any
of them in turn all places hold what was written there last. -/
theorem places_hold_last_writes (m : Machine) :
    (∀ fuel (access : Access),
      ((∃ reply after, perform fuel access.make m = .done reply after) ↔
        ∃ i, Addresses access.index i m.stack.length) ∧
      (∀ reply after, perform fuel access.make m = .done reply after ↔
        ∃ stack, access.Effect m.stack reply stack ∧ after = { m with stack }) ∧
      ∀ fault after, perform fuel access.make m = .failed fault after ↔
        access.Outside m.stack ∧ fault = .language (access.refusal m.stack) ∧ after = m) ∧
    (∀ fuel accesses, ∃ replies stack,
      perform fuel (makeAll accesses) m = .done replies { m with stack } ∧
      AllAnswered m.stack [] accesses replies ∧ stack.length = m.stack.length ∧
      ∀ i v, stack[i]? = some v ↔ Holds m.stack i accesses v) ∧
    (∀ (access : Access) symbol name, m.operators.find? symbol = some name →
      m.functions.find? name = some access.word →
      (∀ after, Succeeds [.operator symbol] (m.pushAll access.arguments) after ↔
        ∃ reply stack, access.Effect m.stack reply stack ∧
          after = { m.trace ("call " ++ name) with stack := reply.toList ++ stack }) ∧
      ∀ fault after, Fails [.operator symbol] (m.pushAll access.arguments) fault after ↔
        access.Outside m.stack ∧
          fault = .evaluation (access.refusal m.stack) m.stack (some (.operator symbol)) ∧
          RolledBack name (.language (access.refusal m.stack)) (m.pushAll access.arguments)
            (m.trace ("call " ++ name)) after) ∧
    ∀ put pick writer reader, m.operators.find? put = some writer →
      m.functions.find? writer = some Core.put → m.operators.find? pick = some reader →
      m.functions.find? reader = some Core.pick → ∀ v x, (∀ symbol, v ≠ .operator symbol) →
      ∀ after, Succeeds [v, .number x, .operator put, .number x, .operator pick] m after ↔
        ∃ i, Addresses x i m.stack.length ∧
          after = { (m.trace ("call " ++ writer)).trace ("call " ++ reader) with
            stack := v :: m.stack.set i v } := by
  refine ⟨fun fuel access => ⟨?_, fun _ _ => perform_make_done_iff,
    fun _ _ => perform_make_failed_iff⟩, fun fuel accesses => ?_,
    fun access symbol name known registered => ⟨fun _ => word_succeeds_iff known registered,
      fun _ _ => word_fails_iff known registered⟩,
    fun put pick writer reader writes writerRegistered reads readerRegistered v x literal after =>
      write_read_succeeds_iff writes writerRegistered reads readerRegistered literal⟩
  · constructor
    · rintro ⟨reply, after, ran⟩
      obtain ⟨stack, effect, -⟩ := perform_make_done_iff.mp ran
      exact effect.addresses
    · rintro ⟨i, inside⟩
      rcases perform_make fuel access m with ⟨reply, stack, -, ran⟩ | ⟨outside, -⟩
      · exact ⟨reply, _, ran⟩
      · exact absurd inside (outside i)
  · obtain ⟨replies, stack, ran, reflects, answered⟩ :=
      perform_makeAll (reflects_nil m.stack) fuel accesses
    exact ⟨replies, stack, ran, answered, reflects.length,
      fun _ _ => reflects.getElem?_eq_some_iff⟩

/-- A machine that can write to its stack and read from it. -/
def shelf : Machine where
  stack := [.boolean true, .boolean false]
  functions := ⟨[("put", Core.put), ("pick", Core.pick)]⟩
  operators := ⟨[("$", "put"), ("g", "pick")]⟩

theorem addresses_negativeZero {depth : Nat} (below : 0 < depth) :
    Addresses Number.negativeZero 0 depth := by
  have isFinite : Number.parts Number.negativeZero = .finite true 0 (-1074) := by decide +kernel
  refine ⟨?_, below⟩
  rw [Number.value?, isFinite]
  simp

theorem not_addresses_one_and_a_half (i depth : Nat) : ¬ Addresses 1.5 i depth := by
  rintro ⟨value, -⟩
  have isFinite : Number.parts 1.5 = .finite false 6755399441055744 (-52) := by decide +kernel
  have half : Number.value? 1.5 = some (3 / 2) := by
    rw [Number.value?, isFinite]
    norm_num
  have whole : ((2 * i : Nat) : ℚ) = (3 : Nat) := by
    have same : (3 / 2 : ℚ) = i := Option.some.inj (half.symm.trans value)
    push_cast
    linarith
  have even : 2 * i = 3 := by exact_mod_cast whole
  omega

theorem not_addresses_nan (i depth : Nat) : ¬ Addresses Number.nan i depth := by
  rintro ⟨value, -⟩
  have isNan : Number.parts Number.nan = .nan := by decide +kernel
  rw [Number.value?, isNan] at value
  cases value

/-- Negative zero is the top of the stack; a fraction and what is no number are no places. -/
theorem places_hold_last_writes_shelf :
    Succeeds [.string "a", .number Number.negativeZero, .operator "$",
        .number Number.negativeZero, .operator "g"] shelf
      { shelf with stack := [.string "a", .string "a", .boolean false] } ∧
    Fails [.operator "g"] (shelf.pushAll [.number 1.5])
      (.evaluation (.outOfBounds 1.5 2) shelf.stack (some (.operator "g")))
      (shelf.pushAll [.number 1.5]) ∧
    perform 0 (Access.write Number.nan (.string "a")).make shelf =
      .failed (.language (.outOfBounds Number.nan 2)) shelf := by
  obtain ⟨singles, -, words, writeThenRead⟩ := places_hold_last_writes shelf
  refine ⟨?_, ?_, ?_⟩
  · refine (writeThenRead "$" "g" "put" "pick" rfl rfl rfl rfl (.string "a") _ (by simp) _).mpr ?_
    exact ⟨0, addresses_negativeZero (by decide), rfl⟩
  · refine ((words (.read 1.5) "g" "pick" rfl rfl).2 _ _).mpr ⟨?_, rfl, ?_⟩
    · exact fun i => not_addresses_one_and_a_half i 2
    · constructor <;> rfl
  · refine ((singles 0 (.write Number.nan (.string "a"))).2.2 _ _).mpr ⟨?_, rfl, rfl⟩
    exact fun i => not_addresses_nan i 2

end Machine

end Cairn
