import Cairn.Proofs.Loops
import Cairn.Proofs.SignedZeros
import Mathlib

set_option autoImplicit false

/-!
# Equality

Equality of values is equality of trees up to the sign of zero, among values without a NaN. The
bodies of blocks are compared token by token, so the two trees are taken apart together. What
depends on a value only up to the sign of zero, its truth for one, is the same for equal values.
-/

namespace Cairn

namespace Value

/-- Somewhere inside the value stands a NaN. -/
inductive HasNaN : Value → Prop
  | number {x : Float} : x.isNaN = true → HasNaN (.number x)
  | block {body : List Value} {v : Value} : v ∈ body → HasNaN v → HasNaN (.block body)

mutual

/-- The value with zero in place of every negative zero inside it. -/
def withPlainZeros : Value → Value
  | .number x => .number (Number.plainZero x)
  | .block body => .block (bodyWithPlainZeros body)
  | v => v

def bodyWithPlainZeros : List Value → List Value
  | [] => []
  | v :: rest => withPlainZeros v :: bodyWithPlainZeros rest

end

@[simp] theorem hasNaN_number_iff {x : Float} : HasNaN (.number x) ↔ x.isNaN = true :=
  ⟨fun inside => by cases inside; assumption, .number⟩

@[simp] theorem hasNaN_block_iff {body : List Value} :
    HasNaN (.block body) ↔ ∃ v ∈ body, v.HasNaN := by
  constructor
  · rintro (_ | ⟨member, inside⟩)
    exact ⟨_, member, inside⟩
  · rintro ⟨v, member, inside⟩
    exact .block member inside

@[simp] theorem not_hasNaN_string (s : String) : ¬ HasNaN (.string s) := nofun

@[simp] theorem not_hasNaN_function (name : String) : ¬ HasNaN (.function name) := nofun

@[simp] theorem not_hasNaN_operator (symbol : String) : ¬ HasNaN (.operator symbol) := nofun

@[simp] theorem not_hasNaN_boolean (b : Bool) : ¬ HasNaN (.boolean b) := nofun

mutual

theorem equal_iff (a b : Value) :
    a.equal b = true ↔ ¬ a.HasNaN ∧ ¬ b.HasNaN ∧ a.withPlainZeros = b.withPlainZeros := by
  cases a with
  | number x =>
    cases b with
    | number y => simp [equal, withPlainZeros, Number.beq_iff]
    | _ => simp [equal, withPlainZeros]
  | block body =>
    cases b with
    | block body' =>
      simp only [equal, withPlainZeros, equalBodies_iff body body', hasNaN_block_iff, not_exists,
        not_and, block.injEq]
    | _ => simp [equal, withPlainZeros]
  | _ => cases b <;> simp [equal, withPlainZeros]

theorem equalBodies_iff (b c : List Value) :
    equalBodies b c = true ↔ (∀ v ∈ b, ¬ v.HasNaN) ∧ (∀ v ∈ c, ¬ v.HasNaN) ∧
      bodyWithPlainZeros b = bodyWithPlainZeros c := by
  cases b with
  | nil => cases c <;> simp [equalBodies, bodyWithPlainZeros]
  | cons v b =>
    cases c with
    | nil => simp [equalBodies, bodyWithPlainZeros]
    | cons w c =>
      simp only [equalBodies, bodyWithPlainZeros, Bool.and_eq_true, equal_iff v w,
        equalBodies_iff b c, List.forall_mem_cons, List.cons.injEq]
      tauto

end

theorem equal_comm (a b : Value) : a.equal b = b.equal a := by
  rw [Bool.eq_iff_iff, equal_iff, equal_iff]
  tauto

theorem equal_trans {a b c : Value} (first : a.equal b = true) (second : b.equal c = true) :
    a.equal c = true := by
  rw [equal_iff] at first second ⊢
  exact ⟨first.1, second.2.1, first.2.2.trans second.2.2⟩

theorem equal_self_iff (a : Value) : a.equal a = true ↔ ¬ a.HasNaN := by
  simp [equal_iff]

theorem truth?_withPlainZeros (v : Value) : v.withPlainZeros.truth? = v.truth? := by
  cases v <;> simp [withPlainZeros, truth?, Number.plainZero_ne_zero]

theorem truth?_eq_of_equal {a b : Value} (same : a.equal b = true) : a.truth? = b.truth? := by
  rw [equal_iff] at same
  rw [← truth?_withPlainZeros a, same.2.2, truth?_withPlainZeros]

end Value

namespace Machine

theorem perform_takeTruth_push (fuel : Nat) (m : Machine) (v : Value) :
    perform fuel Routine.takeTruth (m.push v) =
      match v.truth? with
      | some holds => .done holds m
      | none => .failed (.language (.notBoolean v)) m := perform_takeTruth fuel (m.push v)

/-- Values are equal when no NaN stands in them and they are the same tree once every negative zero
is replaced by zero. So routines that pop truth values cannot tell them apart. -/
theorem equal_is_structural (a b : Value) :
    (a.equal b = true ↔ ¬ a.HasNaN ∧ ¬ b.HasNaN ∧ a.withPlainZeros = b.withPlainZeros) ∧
    a.equal b = b.equal a ∧
    (∀ c : Value, a.equal b = true → b.equal c = true → a.equal c = true) ∧
    (a.equal a = true ↔ ¬ a.HasNaN) ∧
    (a.equal b = true → ∀ (fuel : Nat) (m : Machine),
      (∃ holds, perform fuel Routine.takeTruth (m.push a) = .done holds m ∧
        perform fuel Routine.takeTruth (m.push b) = .done holds m) ∨
      (perform fuel Routine.takeTruth (m.push a) = .failed (.language (.notBoolean a)) m ∧
        perform fuel Routine.takeTruth (m.push b) = .failed (.language (.notBoolean b)) m)) := by
  refine ⟨Value.equal_iff a b, Value.equal_comm a b, fun c => Value.equal_trans,
    Value.equal_self_iff a, fun same fuel m => ?_⟩
  have truth := Value.truth?_eq_of_equal same
  rw [perform_takeTruth_push, perform_takeTruth_push, ← truth]
  cases a.truth? with
  | some holds => exact .inl ⟨holds, rfl, rfl⟩
  | none => exact .inr ⟨rfl, rfl⟩

/-- Two numbers in a block, one of them a block deeper. -/
def zeros (x y : Float) : Value := .block [.number x, .block [.number y, .string "0"]]

/-- Blocks with zeros of either sign at two depths are equal, and so are the two zeros on their own,
which are both false; a block with a NaN differs from itself. -/
theorem equal_is_structural_zeros :
    (zeros 0 Number.negativeZero).equal (zeros Number.negativeZero 0) = true ∧
    (zeros Number.negativeZero 0).equal (zeros 0 0) = true ∧
    (zeros 0 Number.negativeZero).equal (zeros 0 0) = true ∧
    (zeros Number.nan 0).equal (zeros Number.nan 0) = false ∧
    (Value.number 0).equal (.number Number.negativeZero) = true ∧
    perform 0 Routine.takeTruth (push {} (.number 0)) = .done false {} ∧
    perform 0 Routine.takeTruth (push {} (.number Number.negativeZero)) = .done false {} := by
  have number : ∀ x y : Float, x.isNaN = false → y.isNaN = false → ¬ (zeros x y).HasNaN := by
    intro x y notX notY
    simp only [zeros, Value.hasNaN_block_iff, List.mem_cons, List.not_mem_nil, or_false,
      exists_eq_or_imp, exists_eq_left, Value.hasNaN_number_iff, Value.not_hasNaN_string, notX,
      notY, Bool.false_eq_true, not_false_eq_true]
  have positive : (0 : Float).isNaN = false := rfl
  have negative : Number.negativeZero.isNaN = false := rfl
  have zero : Number.plainZero 0 = 0 := by decide +kernel
  have plain : Number.plainZero Number.negativeZero = 0 := by decide +kernel
  have first : (zeros 0 Number.negativeZero).equal (zeros Number.negativeZero 0) = true := by
    refine (equal_is_structural _ _).1.mpr ⟨number _ _ positive negative,
      number _ _ negative positive, ?_⟩
    simp [zeros, Value.withPlainZeros, Value.bodyWithPlainZeros, zero, plain]
  have second : (zeros Number.negativeZero 0).equal (zeros 0 0) = true := by
    refine (equal_is_structural _ _).1.mpr ⟨number _ _ negative positive,
      number _ _ positive positive, ?_⟩
    simp [zeros, Value.withPlainZeros, Value.bodyWithPlainZeros, zero, plain]
  have different : ¬ (zeros Number.nan 0).equal (zeros Number.nan 0) = true := by
    rw [(equal_is_structural _ (zeros Number.nan 0)).2.2.2.1, not_not]
    exact .block (List.mem_cons_self ..) (.number Number.isNaN_nan)
  have numbers : (Value.number 0).equal (.number Number.negativeZero) = true := by decide +kernel
  have isFalse : perform 0 Routine.takeTruth (push {} (.number 0)) = .done false {} := by
    have truth : (Value.number 0).truth? = some false := by decide +kernel
    rw [perform_takeTruth_push, truth]
  refine ⟨first, second, (equal_is_structural _ _).2.2.1 _ first second,
    Bool.eq_false_iff.mpr different, numbers, isFalse, ?_⟩
  rcases (equal_is_structural _ _).2.2.2.2 numbers 0 {} with ⟨_, alike, same⟩ | ⟨complaint, _⟩
  · cases alike.symm.trans isFalse
    exact same
  · cases complaint

end Machine

end Cairn
