import Cairn.Proofs.Arguments
import Cairn.Proofs.UnreadLines
import Cairn.Proofs.WholeNumbers

set_option autoImplicit false

/-!
# Stack effects

The table of the core words that work on data. A row gives the arguments of a word, from the top of
the stack down, and what becomes of a machine without them. A word that is called does what its row
says; it fails with the complaint about the first argument that is missing or of a wrong type, or
else with the complaint of its row, and leaves the stack as it was.
-/

namespace Cairn

open Demand

/-- The effect of a word: the arguments it asks for, top first, and what it makes of a machine from
which they are popped. -/
structure StackEffect where
  demands : List Demand
  result : Contents demands → Machine → Except Fault Machine

namespace StackEffect

def apply (effect : StackEffect) (m : Machine) : Except Fault Machine :=
  match receiveAll effect.demands m.stack with
  | .error cause => .error (.language cause)
  | .ok (contents, rest) => effect.result contents { m with stack := rest }

/-- The arguments give way to results, top first. -/
def replaces (demands : List Demand) (results : Contents demands → List Value) : StackEffect :=
  ⟨demands, fun contents m => .ok { m with stack := results contents ++ m.stack }⟩

def arithmetic (op : Float → Float → Float) : StackEffect :=
  replaces [.number, .number] fun (b, a, _) => [.number (op a b)]

def comparison (op : Float → Float → Bool) : StackEffect :=
  replaces [.number, .number] fun (b, a, _) => [.boolean (op a b)]

def logical (op : Bool → Bool → Bool) : StackEffect :=
  replaces [.truth, .truth] fun (b, a, _) => [.boolean (op a b)]

/-- The place on a stack that a number stands for: it is whole, not negative and below the depth. -/
def position? (x : Float) (depth : Nat) : Option Nat :=
  (Number.value? x).bind fun q =>
    if q.den = 1 ∧ 0 ≤ q ∧ q < depth then some q.num.toNat else none

/-- The value at a place of the stack is copied to the top. -/
def copies (x : Float) (m : Machine) : Except Fault Machine :=
  match (position? x m.stack.length).bind (m.stack[·]?) with
  | some v => .ok (m.push v)
  | none => .error (.language (.outOfBounds x m.stack.length))

def stores : StackEffect where
  demands := [.number, .value]
  result := fun (n, v, _) m =>
    match position? n m.stack.length with
    | some i => .ok { m with stack := m.stack.set i v }
    | none => .error (.language (.outOfBounds n m.stack.length))

def readsNumber : StackEffect where
  demands := [.text]
  result := fun (s, _) m =>
    match Number.numeral? s with
    | some x => .ok (m.push (.number x))
    | none => .error (.language (.badNumber s))

def prints : StackEffect where
  demands := [.value]
  result := fun (v, _) m => .ok (m.emit v.display)

def defines : StackEffect where
  demands := [.text, .block]
  result := fun (name, body, _) m => .ok (m.define name (Core.runBlock body))

def bindsAlias : StackEffect where
  demands := [.text, .text]
  result := fun (symbol, name, _) m =>
    if symbol.length = 1 then .ok { m with operators := m.operators.insert symbol name }
    else .error (.language (.mismatch "single character" (.string symbol)))

/-- The effects of the core words that work on data. -/
def table : Table StackEffect := ⟨[
  ("add", arithmetic (· + ·)),
  ("sub", arithmetic (· - ·)),
  ("mul", arithmetic (· * ·)),
  ("div", arithmetic (· / ·)),
  ("mod", arithmetic Number.remainder),
  ("pow", arithmetic Number.power),
  ("neg", replaces [.number] fun (a, _) => [.number (-a)]),
  ("dup", replaces [.value] fun (a, _) => [a, a]),
  ("drop", replaces [.value] fun _ => []),
  ("swap", replaces [.value, .value] fun (b, a, _) => [a, b]),
  ("over", ⟨[], fun _ => copies 1⟩),
  ("rot", replaces [.value, .value, .value] fun (c, b, a, _) => [a, c, b]),
  ("size", ⟨[], fun _ m => .ok (m.push (.number (Float.ofNat m.stack.length)))⟩),
  ("pick", ⟨[.number], fun (n, _) => copies n⟩),
  ("put", stores),
  ("clear", ⟨[], fun _ m => .ok { m with stack := [] }⟩),
  ("eq", replaces [.value, .value] fun (b, a, _) => [.boolean (a.equal b)]),
  ("lt", comparison fun a b => a < b),
  ("gt", comparison fun a b => a > b),
  ("not", replaces [.truth] fun (a, _) => [.boolean !a]),
  ("and", logical and),
  ("or", logical or),
  ("concat", replaces [.text, .text] fun (b, a, _) => [.string (a ++ b)]),
  ("len", replaces [.text] fun (s, _) => [.number (Float.ofNat s.length)]),
  ("str", replaces [.value] fun (v, _) => [.string v.display]),
  ("num", readsNumber),
  ("print", prints),
  ("define", defines),
  ("alias", bindsAlias)]⟩

theorem position?_eq_some_iff {x : Float} {depth i : Nat} :
    position? x depth = some i ↔ Number.value? x = some (i : ℚ) ∧ i < depth := by
  unfold position?
  cases Number.value? x with
  | none => simp
  | some q =>
    simp only [Option.bind_some, Option.ite_none_right_eq_some, Option.some.injEq]
    constructor
    · rintro ⟨⟨whole, natural, below⟩, rfl⟩
      have same : q = (q.num.toNat : ℚ) := by
        have sign : 0 ≤ q.num := Rat.num_nonneg.mpr natural
        have cast : ((q.num.toNat : ℤ) : ℚ) = q.num := by rw [Int.toNat_of_nonneg sign]
        rw [← Int.cast_natCast, cast]
        exact (Rat.den_eq_one_iff q).mp whole |>.symm
      refine ⟨same, ?_⟩
      rw [same] at below
      exact_mod_cast below
    · rintro ⟨rfl, below⟩
      simp [below]

end StackEffect

theorem Fault.OfInvocation.elim_cause {fault : Fault} (bare : fault.OfInvocation) :
    fault.cause?.elim fault.voiced .language = fault := by
  cases fault with
  | reading cause offset => cases bare
  | evaluation cause stack token => cases bare
  | mute label complaint => cases bare
  | _ => rfl

namespace Machine

open Cairn.Configuration

variable {m after : Machine} {name : String} {effect : StackEffect} {word : Routine Unit}

theorem place?_eq_position? (x : Float) (depth : Nat) :
    place? x depth = StackEffect.position? x depth := by
  ext i
  simp [place?, Option.filter_eq_some_iff, Number.toNat?_eq_some_iff,
    StackEffect.position?_eq_some_iff]

/-- A word that has an effect, on every machine. -/
def Follows (effect : StackEffect) (word : Routine Unit) : Prop :=
  ∀ (exec : Value → Action Unit) (n : Nat) (m : Machine),
    match effect.apply m with
    | .ok after => runWith exec n word m = .done () after
    | .error fault => fault.OfInvocation ∧
        ∃ left, runWith exec n word m = .failed fault { m with stack := left }

theorem follows_pop_bind (demand : Demand) {demands : List Demand}
    {result : Contents (demand :: demands) → Machine → Except Fault Machine}
    {f : demand.Content → Routine Unit}
    (later : ∀ content, Follows ⟨demands, fun contents => result (content, contents)⟩ (f content)) :
    Follows ⟨demand :: demands, result⟩ (demand.pop >>= f) := by
  rintro exec n ⟨stack, functions, operators, tracing, output, log⟩
  rw [runWith_pop_bind]
  cases stack with
  | nil => exact ⟨trivial, [], rfl⟩
  | cons v below =>
    simp only [StackEffect.apply, receiveAll]
    cases demand.receive v with
    | error cause => exact ⟨trivial, below, rfl⟩
    | ok content =>
      -- What is left of the row acts on what is left of the stack.
      have follows := later content exec n ⟨below, functions, operators, tracing, output, log⟩
      simp only [StackEffect.apply] at follows
      cases received : receiveAll demands below with
      | error cause =>
        rw [received] at follows
        exact follows
      | ok arguments =>
        rw [received] at follows
        exact follows

open StackEffect

theorem follows_arithmetic (op : Float → Float → Float) :
    Follows (arithmetic op) (Core.binary op) :=
  follows_pop_bind .number fun _ => follows_pop_bind .number fun _ _ _ _ => rfl

theorem follows_comparison (op : Float → Float → Bool) :
    Follows (comparison op) (Core.comparison op) :=
  follows_pop_bind .number fun _ => follows_pop_bind .number fun _ _ _ _ => rfl

theorem follows_logical (op : Bool → Bool → Bool) : Follows (logical op) (Core.logical op) :=
  follows_pop_bind .truth fun _ => follows_pop_bind .truth fun _ _ _ _ => rfl

theorem follows_swap :
    Follows (replaces [.value, .value] fun (b, a, _) => [a, b]) Core.swap :=
  follows_pop_bind .value fun _ => follows_pop_bind .value fun _ _ _ _ => rfl

theorem follows_eq :
    Follows (replaces [.value, .value] fun (b, a, _) => [.boolean (a.equal b)]) Core.eq :=
  follows_pop_bind .value fun _ => follows_pop_bind .value fun _ _ _ _ => rfl

theorem follows_rot :
    Follows (replaces [.value, .value, .value] fun (c, b, a, _) => [a, c, b]) Core.rot :=
  follows_pop_bind .value fun _ => follows_pop_bind .value fun _ =>
    follows_pop_bind .value fun _ _ _ _ => rfl

theorem follows_define : Follows defines Core.define :=
  follows_pop_bind .text fun _ => follows_pop_bind .block fun _ _ _ _ => rfl

theorem follows_copies (x : Float) :
    Follows ⟨[], fun _ => copies x⟩ (Routine.valueAt x >>= fun v => Routine.push v) := by
  intro exec n m
  have ran : runWith exec n (Routine.valueAt x >>= fun v => Routine.push v) m =
      match m.valueAt x with
      | .ok v => .done () (m.push v)
      | .error fault => .failed fault m := by
    refine (runWith_perform ..).trans ?_
    rw [respond]
    cases m.valueAt x <;> rfl
  simp only [StackEffect.apply, receiveAll, copies, ran, valueAt, place?_eq_position?]
  cases (position? x m.stack.length).bind (m.stack[·]?) with
  | some v => rfl
  | none => exact ⟨trivial, m.stack, rfl⟩

theorem follows_storeAt (x : Float) (v : Value) :
    Follows ⟨[], fun _ m =>
      match position? x m.stack.length with
      | some i => .ok { m with stack := m.stack.set i v }
      | none => .error (.language (.outOfBounds x m.stack.length))⟩ (Routine.storeAt x v) := by
  intro exec n m
  have ran : runWith exec n (Routine.storeAt x v) m =
      match m.storeAt x v with
      | .ok after => .done () after
      | .error fault => .failed fault m := by
    refine (runWith_perform ..).trans ?_
    rw [respond]
    cases m.storeAt x v <;> rfl
  simp only [StackEffect.apply, receiveAll, ran, storeAt, place?_eq_position?]
  cases position? x m.stack.length with
  | some i => rfl
  | none => exact ⟨trivial, m.stack, rfl⟩

theorem follows_put : Follows stores Core.put :=
  follows_pop_bind .number fun n => follows_pop_bind .value fun v => follows_storeAt n v

theorem follows_ite {p : Prop} [Decidable p] {demands : List Demand}
    {result result' : Contents demands → Machine → Except Fault Machine} {word word' : Routine Unit}
    (follows : p → Follows ⟨demands, result⟩ word)
    (follows' : ¬p → Follows ⟨demands, result'⟩ word') :
    Follows ⟨demands, fun contents m => if p then result contents m else result' contents m⟩
      (if p then word else word') := by
  by_cases holds : p
  · simpa only [if_pos holds] using follows holds
  · simpa only [if_neg holds] using follows' holds

theorem follows_fail {fault : Fault} (bare : fault.OfInvocation) :
    Follows ⟨[], fun _ _ => .error fault⟩ (.fail fault) :=
  fun _ _ m => ⟨bare, m.stack, rfl⟩

theorem follows_assignOperator {symbol : String} (single : symbol.length = 1) (name : String) :
    Follows ⟨[], fun _ m => .ok { m with operators := m.operators.insert symbol name }⟩
      (Routine.assignOperator symbol name) := by
  intro exec n m
  have assigned : m.assignOperator symbol name =
      .ok { m with operators := m.operators.insert symbol name } := if_pos single
  refine (runWith_perform ..).trans ?_
  rw [respond, assigned]
  rfl

theorem follows_num : Follows readsNumber Core.num := by
  refine follows_pop_bind .text fun s => ?_
  dsimp only
  cases Number.numeral? s with
  | some x => exact fun _ _ _ => rfl
  | none => exact follows_fail trivial

theorem follows_concat :
    Follows (replaces [.text, .text] fun (b, a, _) => [.string (a ++ b)]) Core.concat :=
  follows_pop_bind .text fun _ => follows_pop_bind .text fun _ _ _ _ => rfl

theorem follows_bindAlias : Follows bindsAlias Core.bindAlias := by
  refine follows_pop_bind .text fun symbol => follows_pop_bind .text fun name => ?_
  exact follows_ite (fun single => follows_assignOperator single name) fun _ =>
    follows_fail trivial

/-- Each core word that works on data has the effect that the table gives it. -/
theorem follows_words : ∀ entry ∈ Core.words, entry.1 ∉ ["exec", "when", "if", "times", "while"] →
    ∃ effect, table.find? entry.1 = some effect ∧ Follows effect entry.2.body := by
  -- One row after another, in the order of the words; those that run code have none.
  simp only [Core.words, List.forall_mem_cons]
  refine ⟨fun _ => ⟨_, rfl, follows_arithmetic _⟩, fun _ => ⟨_, rfl, follows_arithmetic _⟩,
    fun _ => ⟨_, rfl, follows_arithmetic _⟩, fun _ => ⟨_, rfl, follows_arithmetic _⟩,
    fun _ => ⟨_, rfl, follows_arithmetic _⟩, fun _ => ⟨_, rfl, follows_arithmetic _⟩,
    fun _ => ⟨_, rfl, follows_pop_bind .number fun _ _ _ _ => rfl⟩,
    fun _ => ⟨_, rfl, follows_pop_bind .value fun _ _ _ _ => rfl⟩,
    fun _ => ⟨_, rfl, follows_pop_bind .value fun _ _ _ _ => rfl⟩,
    fun _ => ⟨_, rfl, follows_swap⟩,
    fun _ => ⟨_, rfl, follows_copies 1⟩,
    fun _ => ⟨_, rfl, follows_rot⟩,
    fun _ => ⟨_, rfl, fun _ _ _ => rfl⟩,
    fun _ => ⟨_, rfl, follows_pop_bind .number follows_copies⟩,
    fun _ => ⟨_, rfl, follows_put⟩,
    fun _ => ⟨_, rfl, fun _ _ _ => rfl⟩,
    by simp, by simp, by simp, by simp, by simp,
    fun _ => ⟨_, rfl, follows_eq⟩,
    fun _ => ⟨_, rfl, follows_comparison fun a b => a < b⟩,
    fun _ => ⟨_, rfl, follows_comparison fun a b => a > b⟩,
    fun _ => ⟨_, rfl, follows_pop_bind .truth fun _ _ _ _ => rfl⟩,
    fun _ => ⟨_, rfl, follows_logical _⟩, fun _ => ⟨_, rfl, follows_logical _⟩,
    fun _ => ⟨_, rfl, follows_concat⟩,
    fun _ => ⟨_, rfl, follows_pop_bind .text fun _ _ _ _ => rfl⟩,
    fun _ => ⟨_, rfl, follows_pop_bind .value fun _ _ _ _ => rfl⟩,
    fun _ => ⟨_, rfl, follows_num⟩,
    fun _ => ⟨_, rfl, follows_pop_bind .value fun _ _ _ _ => rfl⟩,
    fun _ => ⟨_, rfl, follows_define⟩,
    fun _ => ⟨_, rfl, follows_bindAlias⟩, by simp⟩

/-- A failed call does not keep the stack that the failure left. -/
theorem RolledBack.withStack {thrown : Fault} {before atThrow : Machine} {stack stack' : List Value}
    (rolledBack : RolledBack name thrown before { atThrow with stack } after) :
    RolledBack name thrown before { atThrow with stack := stack' } after :=
  ⟨rolledBack.stack, rolledBack.functions, rolledBack.operators, rolledBack.output,
    rolledBack.tracing, rolledBack.log⟩

section Called

variable (follows : Follows effect word) (registered : m.functions.find? name = some word)

include follows registered

theorem Follows.invoke_succeeds_iff :
    Settles (invoke · (.function name)) m (.ok ()) after ↔
      effect.apply (m.trace ("call " ++ name)) = .ok after := by
  rw [Machine.invoke_succeeds_iff registered]
  have ran := fun fuel => follows (exec fuel) fuel (m.trace ("call " ++ name))
  cases applied : effect.apply (m.trace ("call " ++ name)) with
  | ok last =>
    simp only [applied] at ran
    constructor
    · rintro ⟨fuel, settled⟩
      obtain ⟨_, rfl⟩ := Outcome.done_eq_settled.mp ((ran fuel).symm.trans settled)
      rfl
    · rintro ⟨⟩
      exact ⟨0, ran 0⟩
  | error fault =>
    simp only [applied] at ran
    constructor
    · rintro ⟨fuel, settled⟩
      obtain ⟨_, left, failed⟩ := ran fuel
      cases failed.symm.trans settled
    · rintro ⟨⟩

theorem Follows.invoke_fails_iff {fault : Fault} :
    Settles (invoke · (.function name)) m (.error fault) after ↔
      effect.apply (m.trace ("call " ++ name)) = .error fault ∧
        RolledBack name fault m (m.trace ("call " ++ name)) after := by
  rw [Machine.invoke_fails_iff registered]
  have ran := fun fuel => follows (exec fuel) fuel (m.trace ("call " ++ name))
  cases applied : effect.apply (m.trace ("call " ++ name)) with
  | ok last =>
    simp only [applied] at ran
    constructor
    · rintro ⟨thrown, atThrow, ⟨fuel, failed⟩, _⟩
      cases (ran fuel).symm.trans failed
    · rintro ⟨⟨⟩, _⟩
  | error cause =>
    simp only [applied] at ran
    constructor
    · rintro ⟨thrown, atThrow, ⟨fuel, failed⟩, rolledBack, raised⟩
      obtain ⟨bare, left, failed'⟩ := ran fuel
      cases failed'.symm.trans failed
      obtain rfl : fault = cause := raised.trans bare.elim_cause
      exact ⟨rfl, rolledBack.withStack⟩
    · rintro ⟨⟨⟩, rolledBack⟩
      obtain ⟨bare, left, failed⟩ := ran 0
      exact ⟨fault, _, ⟨0, failed⟩, rolledBack.withStack, bare.elim_cause.symm⟩

end Called

/-- Every core word that works on data has the effect of its row, wherever it is registered. A call
succeeds exactly when the row does, and fails with the complaint of the row. -/
theorem words_have_stack_effects {name : String} {definition : Definition}
    (member : (name, definition) ∈ Core.words)
    (onData : name ∉ ["exec", "when", "if", "times", "while"]) :
    ∃ effect, StackEffect.table.find? name = some effect ∧
      ∀ m : Machine, m.functions.find? name = some definition.body → ∀ after,
        (Settles (invoke · (.function name)) m (.ok ()) after ↔
          effect.apply (m.trace ("call " ++ name)) = .ok after) ∧
        ∀ fault, Settles (invoke · (.function name)) m (.error fault) after ↔
          effect.apply (m.trace ("call " ++ name)) = .error fault ∧
            RolledBack name fault m (m.trace ("call " ++ name)) after := by
  obtain ⟨effect, found, follows⟩ := follows_words (name, definition) member onData
  refine ⟨effect, found, fun m registered after => ?_⟩
  exact ⟨follows.invoke_succeeds_iff registered, fun fault => follows.invoke_fails_iff registered⟩

/-- A machine with one function. -/
def ofWord (name : String) (word : Routine Unit) (stack : List Value) : Machine where
  stack := stack
  functions := ⟨[(name, word)]⟩

/-- A value is stored at a depth that is counted below the arguments. -/
theorem words_have_stack_effects_put :
    Settles (invoke · (.function "put"))
      (ofWord "put" Core.put [.number 1, .string "x", .boolean true, .boolean false]) (.ok ())
      (ofWord "put" Core.put [.boolean true, .string "x"]) ∧
    Settles (invoke · (.function "put"))
      (ofWord "put" Core.put [.number 1, .string "x", .boolean true])
      (.error (.language (.outOfBounds 1 1)))
      (ofWord "put" Core.put [.number 1, .string "x", .boolean true]) := by
  have member : ("put", Core.word "$" "Pop n and a value, then store the value at depth n."
      Core.put) ∈ Core.words := by simp [Core.words]
  obtain ⟨effect, found, calls⟩ := words_have_stack_effects member (by decide)
  obtain rfl : stores = effect := Option.some.inj found
  have one : Number.value? 1 = some ((1 : Nat) : ℚ) := by
    have isFinite : Number.parts 1 = .finite false 4503599627370496 (-52) := by decide +kernel
    rw [Number.value?, isFinite]
    norm_num
  constructor
  · have inside : position? 1 2 = some 1 := position?_eq_some_iff.mpr ⟨one, by decide⟩
    apply (calls _ rfl _).1.mpr
    simp [StackEffect.apply, stores, receiveAll, receive, ofWord, trace, inside, Except.map]
  · have outside : position? 1 1 = none := by
      apply Option.eq_none_iff_forall_ne_some.mpr
      intro i found
      obtain ⟨value, below⟩ := position?_eq_some_iff.mp found
      have same : i = 1 := by exact_mod_cast Option.some.inj (value.symm.trans one)
      omega
    apply ((calls _ rfl _).2 _).mpr
    constructor
    · simp [StackEffect.apply, stores, receiveAll, receive, ofWord, trace, outside, Except.map]
    · constructor <;> rfl

end Machine

end Cairn
