import Cairn.Text.Units
import Mathlib.Data.List.Lex

set_option autoImplicit false

/-!
# The order of texts

Texts are ordered as dictionaries order their 16-bit units. The halves of a surrogate pair are no
characters of their own, so the units of a text tell its characters. Hence sorted names ascend
strictly when none occurs twice.
-/

namespace Cairn.Text

/-- The units of a text come before those of another in a dictionary. -/
def Precedes (s t : String) : Prop := List.Lex (· < ·) (unitsOf s) (unitsOf t)

variable {c d : Char} {s t : String} {names : List String} {name : String}

theorem units_ne_nil (c : Char) : units c ≠ [] := by
  dsimp only [units]
  split <;> simp

/-- The first units of a sequence tell the character that they belong to. -/
theorem units_append_inj {rest rest' : List Nat} (same : units c ++ rest = units d ++ rest') :
    c = d ∧ rest = rest' := by
  have boundC : c.toNat < 0xD800 ∨ 0xDFFF < c.toNat ∧ c.toNat < 0x110000 := c.valid
  have boundD : d.toNat < 0xD800 ∨ 0xDFFF < d.toNat ∧ d.toNat < 0x110000 := d.valid
  simp only [units] at same
  rw [← Char.toNat_inj]
  split at same <;> split at same
  next => simpa using same
  next small large =>
    have first := (List.cons.inj same).1
    omega
  next large small =>
    have first := (List.cons.inj same).1
    omega
  next largeC largeD =>
    obtain ⟨first, others⟩ := List.cons.inj same
    obtain ⟨second, rest⟩ := List.cons.inj others
    exact ⟨by omega, rest⟩

theorem unitsOf_injective : Function.Injective unitsOf := by
  have injective : Function.Injective fun cs : List Char => cs.flatMap units := by
    intro cs
    induction cs with
    | nil =>
      intro ds same
      cases ds with
      | nil => rfl
      | cons d ds => simp [units_ne_nil] at same
    | cons c cs inductionHypothesis =>
      intro ds same
      cases ds with
      | nil => simp [units_ne_nil] at same
      | cons d ds =>
        simp only [List.flatMap_cons] at same
        obtain ⟨rfl, rest⟩ := units_append_inj same
        rw [inductionHypothesis rest]
  exact fun s t same => String.toList_inj.mp (injective same)

theorem unitsLe_iff {a b : List Nat} : unitsLe a b = true ↔ List.Lex (· < ·) a b ∨ a = b := by
  induction a generalizing b with
  | nil => cases b <;> simp [unitsLe]
  | cons x a inductionHypothesis =>
    cases b with
    | nil => simp [unitsLe]
    | cons y b =>
      simp only [unitsLe, Bool.or_eq_true, decide_eq_true_eq, Bool.and_eq_true, beq_iff_eq,
        inductionHypothesis, List.cons_lex_cons_iff, List.cons.injEq, or_assoc, ← and_or_left]

theorem le_iff : le s t = true ↔ Precedes s t ∨ s = t := by
  rw [le, unitsLe_iff, unitsOf_injective.eq_iff, Precedes]

theorem Precedes.trans {r : String} (first : Precedes s t) (second : Precedes t r) :
    Precedes s r :=
  List.lex_trans Nat.lt_trans first second

theorem precedes_or_eq_or_precedes (s t : String) : Precedes s t ∨ s = t ∨ Precedes t s := by
  rw [← unitsOf_injective.eq_iff]
  exact trichotomous_of (List.Lex (· < ·)) (unitsOf s) (unitsOf t)

theorem mem_sort : name ∈ sort names ↔ name ∈ names := List.mem_mergeSort

theorem perm_sort (names : List String) : (sort names).Perm names := List.mergeSort_perm names le

/-- Distinct names ascend strictly once they are sorted. -/
theorem pairwise_sort (nodup : names.Nodup) : (sort names).Pairwise Precedes := by
  have sorted : (sort names).Pairwise fun s t => le s t = true := by
    refine List.pairwise_mergeSort ?_ ?_ names
    · intro r s t
      simp only [le_iff]
      rintro (first | rfl) (second | rfl)
      · exact .inl (first.trans second)
      · exact .inl first
      · exact .inl second
      · exact .inr rfl
    · intro s t
      rw [Bool.or_eq_true, le_iff, le_iff]
      rcases precedes_or_eq_or_precedes s t with first | same | second
      · exact .inl (.inl first)
      · exact .inl (.inr same)
      · exact .inr (.inl second)
  have distinct : (sort names).Nodup := (perm_sort names).nodup_iff.mpr nodup
  refine (sorted.and distinct).imp ?_
  rintro s t ⟨le, other⟩
  exact (le_iff.mp le).resolve_right other

end Cairn.Text
