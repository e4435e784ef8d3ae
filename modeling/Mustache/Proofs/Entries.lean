import Mathlib.Data.List.Sort
import Mathlib.Data.String.Basic
import Mustache.Entries

/-!
# Tables and their keys

What a table holds is known by the value under each key: the keys ascend after
every write (`Entries.sorted_insert`), and two tables whose keys ascend are the
same table if they hold the same under every key (`Entries.eq_of_get?_eq`).  Of
a table that is written over another one every entry is there afterwards
(`Entries.get?_insertAll`).
-/

namespace Mustache

namespace Entries

variable {α : Type} {entries : Entries α} {key : String} {value : α}

theorem mem_of_get? (found : entries.get? key = some value) :
    (key, value) ∈ entries := by
  induction entries with
  | nil => cases found
  | cons entry entries ih =>
    unfold get? at found
    split at found
    · rename_i same
      cases found
      rw [← same]
      exact List.mem_cons_self
    · exact List.mem_cons_of_mem _ (ih found)

/-- What was written under a key, or not. -/
theorem get?_insert
    (entries : Entries α)
    (key other : String)
    (value : α) :
    (entries.insert key value).get? other =
      if key = other then some value else entries.get? other := by
  split
  · rename_i same
    rw [← same, get?_insert_self]
  · rename_i different
    exact get?_insert_of_ne entries value different

theorem eq_or_mem_of_mem_insert
    {entry : String × α}
    (among : entry ∈ entries.insert key value) :
    entry = (key, value) ∨ entry ∈ entries := by
  induction entries with
  | nil => exact .inl (List.mem_singleton.mp among)
  | cons present rest ih =>
    unfold insert at among
    split at among
    · exact (List.mem_cons.mp among).imp_right (List.mem_cons_of_mem _)
    · split at among
      · exact List.mem_cons.mp among
      · rcases List.mem_cons.mp among with rfl | inRest
        · exact .inr List.mem_cons_self
        · exact (ih inRest).imp_right (List.mem_cons_of_mem _)

theorem sorted_insert (sorted : entries.Sorted) :
    (entries.insert key value).Sorted := by
  induction entries with
  | nil => exact List.pairwise_singleton _ _
  | cons entry rest ih =>
    obtain ⟨present, old⟩ := entry
    obtain ⟨behind, sortedRest⟩ := List.pairwise_cons.mp sorted
    unfold insert
    split
    · rename_i same
      exact List.pairwise_cons.mpr ⟨same ▸ behind, sortedRest⟩
    · rename_i different
      split
      · rename_i less
        refine List.pairwise_cons.mpr ⟨?_, sorted⟩
        rintro other (_ | ⟨_, inRest⟩)
        · exact less
        · exact less.trans (behind other inRest)
      · rename_i notLess
        refine List.pairwise_cons.mpr ⟨?_, ih sortedRest⟩
        intro other among
        rcases eq_or_mem_of_mem_insert among with rfl | inRest
        · exact lt_of_le_of_ne (not_lt.mp notLess) different
        · exact behind other inRest

theorem get?_of_mem
    (sorted : entries.Sorted)
    (among : (key, value) ∈ entries) :
    entries.get? key = some value := by
  induction entries with
  | nil => exact absurd among List.not_mem_nil
  | cons entry rest ih =>
    obtain ⟨present, old⟩ := entry
    obtain ⟨behind, sortedRest⟩ := List.pairwise_cons.mp sorted
    rcases List.mem_cons.mp among with same | inRest
    · cases same
      simp [get?]
    · have different : present ≠ key := (behind _ inRest).ne
      simp [get?, different, ih sortedRest inRest]

/-- A table is known by the value under each key. -/
theorem eq_of_get?_eq
    {other : Entries α}
    (sorted : entries.Sorted)
    (otherSorted : other.Sorted)
    (same : ∀ key, entries.get? key = other.get? key) :
    entries = other := by
  have notTwice :
      Std.Asymm fun first second : String × α => first.1 < second.1 :=
    ⟨fun _ _ less => less.asymm⟩
  have contained {first second : Entries α} (firstSorted : first.Sorted)
      (agree : ∀ key, first.get? key = second.get? key) :
      first ⊆ second :=
    fun entry among =>
    mem_of_get? ((agree entry.1).symm.trans (get?_of_mem firstSorted among))
  exact List.Subset.antisymm_of_pairwise sorted otherSorted
    (contained sorted same) (contained otherSorted fun key => (same key).symm)

/-! ## Writing many entries -/

/-- Entries that are written over a table win. -/
theorem get?_insertAll
    {added : Entries α}
    (sorted : added.Sorted)
    (entries : Entries α)
    (key : String) :
    (entries.insertAll added).get? key =
      (added.get? key).or (entries.get? key) := by
  induction added generalizing entries with
  | nil => rfl
  | cons entry added ih =>
    rcases entry with ⟨present, value⟩
    rcases List.pairwise_cons.1 sorted with ⟨behind, sortedRest⟩
    show ((entries.insert present value).insertAll added).get? key = _
    rw [ih sortedRest, get?_insert, get?]
    split
    · rename_i same
      subst same
      have absent : Entries.get? added present = none := by
        cases found : Entries.get? added present with
        | none => rfl
        | some other =>
          exact absurd (behind _ (mem_of_get? found)) (lt_irrefl present)
      rw [absent]
      rfl
    · rfl

theorem sorted_insertAll
    {entries : Entries α}
    (sorted : entries.Sorted)
    (added : List (String × α)) :
    (entries.insertAll added).Sorted := by
  induction added generalizing entries with
  | nil => exact sorted
  | cons entry added ih => exact ih (sorted_insert sorted)

/-- The keys of a table ascend, so it is the table of its entries. -/
theorem ofList_of_sorted
    {entries : Entries α}
    (sorted : entries.Sorted) :
    ofList entries = entries := by
  refine eq_of_get?_eq (sorted_insertAll List.Pairwise.nil entries) sorted
    fun key => ?_
  rw [ofList, get?_insertAll sorted, get?_nil, Option.or_none]

end Entries

end Mustache
