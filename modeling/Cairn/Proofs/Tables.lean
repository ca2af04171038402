import Cairn.Table
import Mathlib.Data.List.Nodup

set_option autoImplicit false

/-!
# Tables

What tables hold. A look-up answers an entry of the table, it answers exactly for the keys, and an
insertion keeps every key in its place, brings in nothing but its own entry, and is what a look-up
then finds. No table comes to hold a key twice. Of entries that are set in turn the last one of a
key counts, in the place of the first.
-/

namespace Cairn.Table

universe u

variable {α : Type u} {t : Table α} {name key : String} {entry x : α}

theorem mem_keys : key ∈ t.keys ↔ ∃ e ∈ t.entries, e.1 = key := by
  simp [keys]

theorem contains_iff : t.contains key = true ↔ key ∈ t.keys := by
  simp [contains, keys]

theorem contains_eq_isSome : t.contains key = (t.find? key).isSome := by
  rw [Bool.eq_iff_iff]
  simp [contains, find?]

theorem mem_of_find? (found : t.find? name = some x) : (name, x) ∈ t.entries := by
  obtain ⟨e, present, rfl⟩ := Option.map_eq_some_iff.mp found
  have same : e.1 = name := by simpa using List.find?_some present
  subst same
  exact List.mem_of_find?_eq_some present

theorem exists_find? (known : key ∈ t.keys) : ∃ x, t.find? key = some x := by
  obtain ⟨e, member, rfl⟩ := mem_keys.mp known
  have present : (t.entries.find? (·.1 = e.1)).isSome := by
    rw [List.find?_isSome]
    exact ⟨e, member, by simp⟩
  obtain ⟨x, found⟩ := Option.isSome_iff_exists.mp present
  exact ⟨x.2, by simp [find?, found]⟩

/-- Among entries of distinct names a look-up finds each one. -/
theorem find?_name_of_mem {entries : List (String × α)} {e : String × α}
    (nodup : (entries.map (·.1)).Nodup) (member : e ∈ entries) :
    entries.find? (·.1 = e.1) = some e := by
  cases found : entries.find? (·.1 = e.1) with
  | none => simpa using List.find?_eq_none.mp found e member
  | some other =>
    have named : other.1 = e.1 := by simpa using List.find?_some found
    rw [List.inj_on_of_nodup_map nodup (List.mem_of_find?_eq_some found) member named]

theorem find?_eq_some_iff (nodup : t.keys.Nodup) : t.find? key = some x ↔ (key, x) ∈ t.entries := by
  refine ⟨mem_of_find?, fun member => ?_⟩
  rw [find?, find?_name_of_mem nodup member]
  rfl

theorem keys_insert :
    (t.insert name entry).keys = if name ∈ t.keys then t.keys else t.keys ++ [name] := by
  unfold insert
  by_cases known : name ∈ t.keys
  · rw [if_pos (contains_iff.mpr known), if_pos known]
    unfold keys
    rw [List.map_map]
    apply List.map_congr_left
    intro e _
    dsimp only [Function.comp]
    split
    next same => exact same.symm
    next => rfl
  · rw [if_neg (mt contains_iff.mp known), if_neg known]
    simp [keys]

theorem keys_subset_insert : t.keys ⊆ (t.insert name entry).keys := by
  rw [keys_insert]
  split
  · exact List.Subset.refl _
  · exact List.subset_append_left _ _

theorem keys_erase : (t.erase name).keys = t.keys.filter (· ≠ name) := by
  simp [keys, erase, List.filter_map, Function.comp_def]

theorem nodup_keys_insert (nodup : t.keys.Nodup) : (t.insert name entry).keys.Nodup := by
  rw [keys_insert]
  split
  next => exact nodup
  next unknown => exact List.nodup_append.mpr ⟨nodup, by simp, by grind⟩

theorem nodup_keys_erase (nodup : t.keys.Nodup) : (t.erase name).keys.Nodup := by
  rw [keys_erase]
  exact nodup.filter _

theorem mem_insert {e : String × α} (member : e ∈ (t.insert name entry).entries) :
    e ∈ t.entries ∨ e = (name, entry) := by
  unfold insert at member
  split at member
  · obtain ⟨old, oldMember, rfl⟩ := List.mem_map.mp member
    split
    · exact .inr rfl
    · exact .inl oldMember
  · simpa using member

theorem mem_insert_self : (name, entry) ∈ (t.insert name entry).entries := by
  unfold insert
  split
  next known =>
    obtain ⟨e, member, same⟩ := mem_keys.mp (contains_iff.mp known)
    exact List.mem_map.mpr ⟨e, member, if_pos same⟩
  next => simp

theorem eq_of_mem_insert (member : (name, x) ∈ (t.insert name entry).entries) : x = entry := by
  unfold insert at member
  split at member
  next =>
    obtain ⟨old, _, same⟩ := List.mem_map.mp member
    split at same
    next => exact (Prod.mk.inj same).2.symm
    next other => exact absurd (congrArg Prod.fst same) other
  next unknown =>
    rcases List.mem_append.mp member with old | new
    · exact absurd (contains_iff.mpr (mem_keys.mpr ⟨_, old, rfl⟩)) unknown
    · exact (Prod.mk.inj (List.mem_singleton.mp new)).2

theorem find?_insert_self : (t.insert name entry).find? name = some entry := by
  obtain ⟨x, found⟩ := exists_find? (mem_keys.mpr ⟨_, mem_insert_self, rfl⟩)
  rw [found, eq_of_mem_insert (mem_of_find? found)]

theorem find?_insert_of_ne (other : key ≠ name) :
    (t.insert name entry).find? key = t.find? key := by
  unfold insert find?
  split
  next =>
    have same : (fun e : String × α => decide (e.1 = key)) ∘
        (fun e => if e.1 = name then (name, entry) else e) = fun e => decide (e.1 = key) := by
      funext e
      grind
    rw [List.find?_map, Option.map_map, same]
    cases found : t.entries.find? (·.1 = key) with
    | none => rfl
    | some e =>
      have named : e.1 = key := by simpa using List.find?_some found
      simp [named, other]
  next => simp [List.find?_append, other.symm]

/-- A table with entries set in turn. -/
def insertAll (t : Table α) (entries : List (String × α)) : Table α :=
  entries.foldl (fun t e => t.insert e.1 e.2) t

variable {e : String × α} {entries : List (String × α)}

theorem insertAll_cons : t.insertAll (e :: entries) = (t.insert e.1 e.2).insertAll entries := rfl

/-- New keys come after the old ones, in the order in which they come up first. -/
theorem keys_insertAll :
    (t.insertAll entries).keys =
      t.keys ++ ((entries.map (·.1)).filter (· ∉ t.keys)).eraseDups := by
  induction entries generalizing t with
  | nil => simp [insertAll]
  | cons e entries inductionHypothesis =>
    rw [insertAll_cons, inductionHypothesis, keys_insert, List.map_cons]
    by_cases known : e.1 ∈ t.keys
    · rw [if_pos known, List.filter_cons_of_neg (by simpa using known)]
    · rw [if_neg known, List.filter_cons_of_pos (by simpa using known), List.eraseDups_cons,
        List.append_assoc, List.singleton_append, List.filter_filter]
      congr 4
      funext key
      simp [Bool.and_comm, Bool.beq_eq_decide_eq]

theorem eraseDups_of_nodup {names : List String} (nodup : names.Nodup) :
    names.eraseDups = names := by
  induction names with
  | nil => rfl
  | cons name names inductionHypothesis =>
    obtain ⟨once, nodup⟩ := List.nodup_cons.mp nodup
    have others : names.filter (fun other => !other == name) = names := by
      rw [List.filter_eq_self]
      intro other member
      simpa using ne_of_mem_of_not_mem member once
    rw [List.eraseDups_cons, others, inductionHypothesis nodup]

theorem keys_insertAll_of_nodup (nodup : (entries.map (·.1)).Nodup) :
    (t.insertAll entries).keys = t.keys ++ (entries.map (·.1)).filter (· ∉ t.keys) := by
  rw [keys_insertAll, eraseDups_of_nodup (nodup.filter _)]

theorem find?_insertAll :
    (t.insertAll entries).find? key =
      ((entries.reverse.find? (·.1 = key)).map (·.2)).or (t.find? key) := by
  induction entries generalizing t with
  | nil => simp [insertAll]
  | cons e entries inductionHypothesis =>
    rw [insertAll_cons, inductionHypothesis, List.reverse_cons, List.find?_append]
    cases entries.reverse.find? (·.1 = key) with
    | some later => simp
    | none =>
      by_cases same : e.1 = key
      · subst same
        simp [find?_insert_self]
      · simp [find?_insert_of_ne (Ne.symm same), same]

theorem find?_insertAll_of_mem (nodup : (entries.map (·.1)).Nodup) (member : (key, x) ∈ entries) :
    (t.insertAll entries).find? key = some x := by
  have reversed : (entries.reverse.map (·.1)).Nodup := by
    rw [List.map_reverse]
    exact List.nodup_reverse.mpr nodup
  rw [find?_insertAll, find?_name_of_mem reversed (List.mem_reverse.mpr member)]
  rfl

theorem find?_insertAll_of_notMem (unnamed : key ∉ entries.map (·.1)) :
    (t.insertAll entries).find? key = t.find? key := by
  have none : entries.reverse.find? (·.1 = key) = none := by
    rw [List.find?_eq_none]
    intro e member
    simpa using ne_of_mem_of_not_mem (List.mem_map_of_mem (List.mem_reverse.mp member)) unnamed
  rw [find?_insertAll, none]
  rfl

theorem nodup_keys_insertAll (nodup : t.keys.Nodup) : (t.insertAll entries).keys.Nodup := by
  induction entries generalizing t with
  | nil => exact nodup
  | cons e entries inductionHypothesis => exact inductionHypothesis (nodup_keys_insert nodup)

theorem entries_insertAll_of_new (new : ∀ key ∈ entries.map (·.1), key ∉ t.keys)
    (nodup : (entries.map (·.1)).Nodup) :
    (t.insertAll entries).entries = t.entries ++ entries := by
  induction entries generalizing t with
  | nil => simp [insertAll]
  | cons e entries inductionHypothesis =>
    have unknown : e.1 ∉ t.keys := new e.1 (by simp)
    obtain ⟨once, nodup⟩ := List.nodup_cons.mp nodup
    have stillNew : ∀ key ∈ entries.map (·.1), key ∉ (t.insert e.1 e.2).keys := by
      intro key member
      rw [keys_insert, if_neg unknown, List.mem_append, List.mem_singleton]
      rintro (old | rfl)
      · exact new key (List.mem_cons_of_mem _ member) old
      · exact once member
    rw [insertAll_cons, inductionHypothesis stillNew nodup, insert,
      if_neg (mt contains_iff.mp unknown), List.append_assoc, List.singleton_append]

end Cairn.Table
