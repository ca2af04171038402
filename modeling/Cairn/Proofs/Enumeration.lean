import Cairn.Plugin.Export
import Cairn.Proofs.Numerals
import Cairn.Proofs.Tables
import Mathlib

set_option autoImplicit false

/-!
# The order of members

The members of a record are taken in an order of their own: names that are indices by their number,
and after them the others as they were first written, each name once and with its last entry. The
positions of an array are in this order already, and a list that is in it stays as it is when its
entries are taken again.
-/

namespace Cairn

namespace Plugin

open Number

variable {α : Type 1} {entries : List (String × α)} {name : String} {n : Nat} {names : List String}

theorem index?_toString (n : Nat) :
    index? (toString n) = if n < 0xFFFFFFFF then some n else none := by
  have digits : ∀ c ∈ Nat.toDigits 10 n, c.isDigit := fun c member =>
    Nat.isDigit_of_mem_toDigits (by decide) (by decide) member
  simp [index?, and_iff_right digits]

theorem toString_of_index? (spelled : index? name = some n) : toString n = name := by
  unfold index? at spelled
  dsimp only at spelled
  split at spelled <;> cases spelled
  next plain =>
    rw [Nat.toString_eq_repr, Nat.repr_eq_ofList_toDigits, plain.2.1, String.ofList_toList]

/-- One name can come before another: of two indices the smaller one, and an index before a name
that is none. -/
def Precedes (a b : String) : Prop :=
  match index? a, index? b with
  | some i, some j => i < j
  | none, some _ => False
  | _, none => True

/-- Names as they are taken, each once. -/
structure InOrder (names : List String) : Prop where
  nodup : names.Nodup
  ordered : names.Pairwise Precedes

theorem InOrder.sublist {fewer : List String} (inOrder : InOrder names)
    (sublist : fewer.Sublist names) : InOrder fewer :=
  ⟨inOrder.nodup.sublist sublist, inOrder.ordered.sublist sublist⟩

theorem precedes_toString {i j : Nat} (less : i < j) : Precedes (toString i) (toString j) := by
  unfold Precedes
  rw [index?_toString, index?_toString]
  by_cases small : j < 0xFFFFFFFF
  · rw [if_pos small, if_pos (by omega)]
    exact less
  · rw [if_neg small]
    split <;> trivial

theorem precedes_of_none {a b : String} (named : index? b = none) : Precedes a b := by
  unfold Precedes
  rw [named]
  split <;> trivial

theorem inOrder_positions (count : Nat) : InOrder ((List.range count).map toString) where
  nodup := by
    refine List.nodup_range.map ?_
    intro i j same
    simpa using same
  ordered := List.pairwise_map.mpr (List.pairwise_lt_range.imp precedes_toString)

/-- Every name is taken in its place, with the entry that was written last; names that are no
indices come as they were first written. -/
structure Enumerates (written taken : List (String × α)) : Prop where
  inOrder : InOrder (taken.map (·.1))
  last : ∀ name x, (name, x) ∈ taken ↔ written.reverse.find? (·.1 = name) = some (name, x)
  named : (taken.map (·.1)).filter (fun name => (index? name).isNone) =
    (written.map (·.1)).eraseDups.filter fun name => (index? name).isNone

theorem keys_ofList (entries : List (String × α)) :
    (Table.ofList entries).keys = (entries.map (·.1)).eraseDups := by
  refine Table.keys_insertAll.trans ?_
  simp [Table.empty, Table.keys]

theorem nodup_keys_ofList (entries : List (String × α)) : (Table.ofList entries).keys.Nodup :=
  Table.nodup_keys_insertAll (by simp [Table.empty, Table.keys])

theorem mem_ofList {e : String × α} :
    e ∈ (Table.ofList entries).entries ↔ entries.reverse.find? (·.1 = e.1) = some e := by
  have found : (Table.ofList entries).find? e.1 =
      (entries.reverse.find? (·.1 = e.1)).map (·.2) := by
    refine Table.find?_insertAll.trans ?_
    simp [Table.empty, Table.find?]
  rw [← Table.find?_eq_some_iff (nodup_keys_ofList entries), found, Option.map_eq_some_iff]
  constructor
  · rintro ⟨last, found, same⟩
    have named : last.1 = e.1 := by simpa using List.find?_some found
    rw [found, Prod.ext named same]
  · intro found
    exact ⟨e, found, rfl⟩

/-- The entries whose names are indices, by their number. -/
def numbered (entries : List (String × α)) : List (String × α) :=
  ((Table.ofList entries).entries.filter fun e => (index? e.1).isSome).mergeSort
    fun a b => (index? a.1).getD 0 ≤ (index? b.1).getD 0

theorem enumerate_eq (entries : List (String × α)) :
    enumerate entries =
      numbered entries ++ (Table.ofList entries).entries.filter fun e => (index? e.1).isNone := rfl

theorem perm_enumerate (entries : List (String × α)) :
    (enumerate entries).Perm (Table.ofList entries).entries := by
  rw [enumerate_eq]
  refine ((List.mergeSort_perm _ _).append_right _).trans ?_
  simpa using List.filter_append_perm (fun e => (index? e.1).isSome) (Table.ofList entries).entries

theorem index?_of_mem_numbered {e : String × α} (member : e ∈ numbered entries) :
    ∃ n, index? e.1 = some n := by
  rw [numbered, List.mem_mergeSort, List.mem_filter] at member
  exact Option.isSome_iff_exists.mp member.2

theorem pairwise_numbered (entries : List (String × α)) :
    (numbered entries).Pairwise fun a b => (index? a.1).getD 0 ≤ (index? b.1).getD 0 := by
  refine (List.pairwise_mergeSort ?_ ?_ _).imp of_decide_eq_true
  · intro a b c
    simpa using Nat.le_trans
  · intro a b
    simpa using Nat.le_total _ _

theorem nodup_names_enumerate (entries : List (String × α)) :
    ((enumerate entries).map (·.1)).Nodup :=
  ((perm_enumerate entries).map Prod.fst).nodup_iff.mpr (nodup_keys_ofList entries)

theorem inOrder_enumerate (entries : List (String × α)) :
    InOrder ((enumerate entries).map (·.1)) where
  nodup := nodup_names_enumerate entries
  ordered := by
    have nodup := nodup_names_enumerate entries
    rw [enumerate_eq, List.map_append] at nodup
    have named : ∀ b ∈ ((Table.ofList entries).entries.filter
        fun e => (index? e.1).isNone).map (·.1), index? b = none := by
      simp
    rw [enumerate_eq, List.map_append, List.pairwise_append]
    refine ⟨?_, ?_, fun a _ b member => precedes_of_none (named b member)⟩
    · rw [List.pairwise_map]
      refine ((pairwise_numbered entries).and
        (List.pairwise_map.mp nodup.of_append_left)).imp_of_mem ?_
      rintro a b aMember bMember ⟨notAfter, distinct⟩
      obtain ⟨i, aIndex⟩ := index?_of_mem_numbered aMember
      obtain ⟨j, bIndex⟩ := index?_of_mem_numbered bMember
      have notSame : i ≠ j := by
        rintro rfl
        exact distinct ((toString_of_index? aIndex).symm.trans (toString_of_index? bIndex))
      simp only [aIndex, bIndex, Option.getD_some] at notAfter
      simp only [Precedes, aIndex, bIndex]
      omega
    · exact List.pairwise_of_forall_mem_list fun a _ b member => precedes_of_none (named b member)

theorem enumerates_enumerate (entries : List (String × α)) :
    Enumerates entries (enumerate entries) where
  inOrder := inOrder_enumerate entries
  last := fun name x => (perm_enumerate entries).mem_iff.trans mem_ofList
  named := by
    have none : (numbered entries).filter (fun e => (index? e.1).isNone) = [] := by
      rw [List.filter_eq_nil_iff]
      intro e member
      obtain ⟨n, spelled⟩ := index?_of_mem_numbered member
      simp [spelled]
    rw [← keys_ofList, Table.keys, enumerate_eq, List.filter_map, List.filter_map]
    simp [none, Function.comp_def]

/-- A look-up by name does not depend on the order, only on what was written last. -/
theorem find?_enumerate (entries : List (String × α)) (name : String) :
    (enumerate entries).find? (·.1 = name) = entries.reverse.find? (·.1 = name) := by
  have last := (enumerates_enumerate entries).last
  ext e
  constructor
  · intro found
    have same : e.1 = name := by simpa using List.find?_some found
    exact same ▸ (last e.1 e.2).mp (List.mem_of_find?_eq_some found)
  · intro found
    have same : e.1 = name := by simpa using List.find?_some found
    subst same
    exact Table.find?_name_of_mem (nodup_names_enumerate entries) ((last e.1 e.2).mpr found)

/-- A list that begins with the indices is its indices followed by the rest. -/
theorem filter_append_of_ordered (ordered : (entries.map (·.1)).Pairwise Precedes) :
    entries.filter (fun e => (index? e.1).isSome) ++ entries.filter (fun e => (index? e.1).isNone) =
      entries := by
  induction entries with
  | nil => rfl
  | cons e entries inductionHypothesis =>
    obtain ⟨first, ordered⟩ := List.pairwise_cons.mp ordered
    cases index : index? e.1 with
    | some n => simpa [index] using inductionHypothesis ordered
    | none =>
      -- No index comes after a name that is none.
      have rest : ∀ other ∈ entries, index? other.1 = none := by
        intro other member
        have precedes := first other.1 (List.mem_map_of_mem member)
        unfold Precedes at precedes
        rw [index] at precedes
        cases otherIndex : index? other.1 with
        | none => rfl
        | some n =>
          rw [otherIndex] at precedes
          cases precedes
      have none : entries.filter (fun e => (index? e.1).isSome) = [] := by
        simpa using rest
      have all : entries.filter (fun e => (index? e.1).isNone) = entries := by
        simpa using rest
      simp [index, none, all]

theorem enumerate_of_inOrder (inOrder : InOrder (entries.map (·.1))) :
    enumerate entries = entries := by
  have whole : (Table.ofList entries).entries = entries :=
    (Table.entries_insertAll_of_new (by simp [Table.empty, Table.keys]) inOrder.nodup).trans
      (List.nil_append entries)
  have sorted : (entries.filter fun e => (index? e.1).isSome).Pairwise fun a b =>
      decide ((index? a.1).getD 0 ≤ (index? b.1).getD 0) = true := by
    have ordered := (List.pairwise_map.mp inOrder.ordered).sublist
      (List.filter_sublist (p := fun e => (index? e.1).isSome))
    refine ordered.imp_of_mem ?_
    intro a b aMember bMember precedes
    obtain ⟨i, aIndex⟩ := Option.isSome_iff_exists.mp (List.mem_filter.mp aMember).2
    obtain ⟨j, bIndex⟩ := Option.isSome_iff_exists.mp (List.mem_filter.mp bMember).2
    simp only [Precedes, aIndex, bIndex] at precedes
    simp [aIndex, bIndex, precedes.le]
  rw [enumerate_eq, numbered, whole, List.mergeSort_of_pairwise sorted]
  exact filter_append_of_ordered inOrder.ordered

end Plugin

namespace Export

open Plugin

/-- The members of a record or an array as written, an array's under their positions. -/
def written? : Export → Option (List (String × Except Fault Export))
  | .record members | .derived _ members => some members
  | .array items => some (items.zipIdx.map fun (item, i) => (toString i, .ok item))
  | _ => none

theorem inOrder_zipIdx {α : Type*} (items : List Export) (f : Export → α) :
    InOrder ((items.zipIdx.map fun (item, i) => (toString i, f item)).map (·.1)) := by
  have names : (items.zipIdx.map fun (item, i) => (toString i, f item)).map (·.1) =
      (List.range items.length).map toString := by
    rw [List.map_map, List.range_eq_range', ← List.zipIdx_map_snd 0 items, List.map_map]
    rfl
  rw [names]
  exact inOrder_positions items.length

/-- Whatever has members gives them in their order. -/
theorem members?_eq (x : Export) : x.members? = x.written?.map enumerate := by
  cases x with
  | array items => exact congrArg some (enumerate_of_inOrder (inOrder_zipIdx items Except.ok)).symm
  | _ => rfl

section Members

variable (base : Export) (body : Routine Unit) (members : List (String × Except Fault Export))
  (name : String)

/-- Among members written one after the other the last of a name counts. -/
def lastWritten : Option (Except Fault Export) :=
  (members.reverse.find? (·.1 = name)).map (·.2)

theorem lastWritten_eq :
    ((enumerate members).find? (·.1 = name)).bind (some ·.2) = lastWritten members name := by
  rw [find?_enumerate]
  cases found : members.reverse.find? (·.1 = name) <;> simp [lastWritten, found]

theorem member?_record : (Export.record members).member? name = lastWritten members name :=
  lastWritten_eq members name

theorem member?_routine : (Export.routine body members).member? name = lastWritten members name :=
  lastWritten_eq members name

theorem member?_derived : (Export.derived base members).member? name =
    (lastWritten members name).or (base.member? name) := by
  rw [← lastWritten_eq]
  rfl

theorem get_record :
    (Export.record members).get name = (lastWritten members name).getD (.ok .undefined) := by
  rw [get, member?_record]

theorem get_derived : (Export.derived base members).get name =
    ((lastWritten members name).or (base.member? name)).getD (.ok .undefined) := by
  rw [get, member?_derived]

end Members

end Export

end Cairn
