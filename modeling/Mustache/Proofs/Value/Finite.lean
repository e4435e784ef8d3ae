import Mathlib.Data.List.Perm.Subperm
import Mathlib.Logic.Relation
import Mustache.Proofs.Value.Plain
import Mustache.Value.Json

/-!
# Finite values

A list has its items as parts, and a map the values in its table.  A value is
finite when going from it to a part, and on to a part of that, comes to an end.
Every finite value has a text (`Value.text?_of_isFinite`): on the way down no
table occurs twice, so the tables of the store bound how many maps there are
below one another.
-/

namespace Mustache

namespace Value

/--
`part.PartOf store whole`: the value is an item of the list, or stands in the
map's table.
-/
inductive PartOf (store : Store) : Value → Value → Prop where
  | item
      {items : List Value}
      {item : Value}
      (member : item ∈ items) :
      PartOf store item (.list items)
  | entry
      {map : MapRef}
      {key : String}
      {value : Value}
      (member : (key, value) ∈ map.entries store) :
      PartOf store value (.map map)

/-- Going from a value to its parts comes to an end. -/
def IsFinite (store : Store) (value : Value) : Prop :=
  Acc (PartOf store) value

variable {store : Store} {value : Value}

theorem partOf_of_get?
    {key : String}
    {part : Value}
    (under : value.get? store key = some part) :
    PartOf store part value := by
  cases value with
  | map map => exact .entry (Entries.mem_of_get? under)
  | _ => cases under

/-- What is reached from finite data is finite. -/
theorem Reaches.isFinite
    {data : Value}
    (finite : data.IsFinite store)
    (reached : data.Reaches store value) :
    value.IsFinite store := by
  apply reached.closed finite
  · intro items isFinite item member
    exact isFinite.inv (.item member)
  · intro owner key value isFinite under
    exact isFinite.inv (partOf_of_get? under)

/-- A finite value is no part of itself. -/
theorem IsFinite.not_self (finite : value.IsFinite store) :
    ¬Relation.TransGen (PartOf store) value value := by
  intro cycle
  have further := Acc.transGen finite
  clear finite
  induction further with
  | intro value _ ih => exact ih value cycle cycle

/-- Does going from a value to its parts come to an end within some steps? -/
def isFiniteWithin (store : Store) : Nat → Value → Bool
  | 0, _ => false
  | steps + 1, .list items => items.all (isFiniteWithin store steps)
  | steps + 1, .map owner =>
    (owner.entries store).all fun entry => isFiniteWithin store steps entry.2
  | _ + 1, _ => true

theorem isFinite_of_isFiniteWithin
    (steps : Nat)
    (ends : value.isFiniteWithin store steps = true) :
    value.IsFinite store := by
  induction steps generalizing value with
  | zero => cases ends
  | succ steps ih =>
    constructor
    intro part isPart
    cases isPart with
    | item member => exact ih (List.all_eq_true.1 ends part member)
    | entry member => exact ih (List.all_eq_true.1 ends _ member)

/-- What is a part of a map is a part of every map with the same table. -/
theorem transGen_map
    {part : Value}
    {table : TableId}
    {primitive : Option Lambda}
    (below : Relation.TransGen (PartOf store) part (.map ⟨table, primitive⟩))
    (other : Option Lambda) :
    Relation.TransGen (PartOf store) part (.map ⟨table, other⟩) := by
  have again {inner : Value}
      (within : PartOf store inner (.map ⟨table, primitive⟩)) :
      PartOf store inner (.map ⟨table, other⟩) := by
    cases within with
    | entry member => exact .entry member
  cases below with
  | single within => exact .single (again within)
  | tail further within => exact .tail further (again within)

/-! ## The text of a finite value -/

theorem mapM_isSome
    {α β : Type}
    {step : α → Option β}
    {items : List α}
    (each : ∀ item ∈ items, (step item).isSome = true) :
    (items.mapM step).isSome = true := by
  induction items with
  | nil => rfl
  | cons item items ih =>
    rcases List.forall_mem_cons.1 each with ⟨first, others⟩
    rcases Option.isSome_iff_exists.1 first with ⟨answer, isAnswer⟩
    rcases Option.isSome_iff_exists.1 (ih others) with ⟨answers, areAnswers⟩
    simp [List.mapM_cons, isAnswer, areAnswers]

theorem jsonItemsWith_eq_mapM
    (table : TableId → Option Json)
    (items : List Value) :
    jsonItemsWith table items = items.mapM (jsonWith table) := by
  induction items with
  | nil => rfl
  | cons item items ih => rw [jsonItemsWith, ih, List.mapM_cons]

/-- The structured form of an entry, given the form of a table. -/
def entryJsonWith
    (table : TableId → Option Json)
    (entry : String × Value) : Option (String × Json) :=
  (jsonWith table entry.2).map (entry.1, ·)

theorem tableJson?_succ
    (store : Store)
    (depth : Nat)
    (table : TableId) :
    tableJson? store (depth + 1) table =
      ((store.entries table).mapM (entryJsonWith (tableJson? store depth))).map
        .object := by
  have step : (fun entry : String × Value => do
      let json ← jsonWith (tableJson? store depth) entry.2
      pure (entry.1, json)) = entryJsonWith (tableJson? store depth) := by
    funext entry
    cases formed : jsonWith (tableJson? store depth) entry.2 <;>
      simp [entryJsonWith, formed]
  simp only [tableJson?, bind, pure] at step ⊢
  rw [step]
  cases (store.entries table).mapM (entryJsonWith (tableJson? store depth)) <;>
    rfl

theorem tableJson?_isSome
    {depth : Nat}
    {table : TableId}
    (each :
      ∀ entry ∈ store.entries table,
        (jsonWith (tableJson? store depth) entry.2).isSome = true) :
    (tableJson? store (depth + 1) table).isSome = true := by
  rw [tableJson?_succ, Option.isSome_map]
  exact mapM_isSome fun entry member =>
    Option.isSome_map.trans (each entry member)

/-- The tables of a store bound the number of different ones. -/
theorem length_le_of_tables
    {seen : List Nat}
    (different : seen.Nodup)
    (bounded : ∀ index ∈ seen, index < store.tables.size) :
    seen.length ≤ store.tables.size := by
  have subset : seen ⊆ List.range store.tables.size := fun index member =>
    List.mem_range.2 (bounded index member)
  simpa using (different.subperm subset).length_le

/--
The structured form of a finite value, below the maps of some tables.  None of
them is a part of the value, so the depth that is left is enough for the other
tables.
-/
theorem jsonWith_of_isFinite
    (finite : value.IsFinite store)
    {depth : Nat}
    {seen : List Nat}
    (different : seen.Nodup)
    (bounded : ∀ index ∈ seen, index < store.tables.size)
    (above :
      ∀ index ∈ seen,
        ∀ primitive,
          Relation.TransGen (PartOf store) value (.map ⟨⟨index⟩, primitive⟩))
    (enough : store.tables.size < depth + seen.length) :
    (jsonWith (tableJson? store depth) value).isSome = true := by
  induction finite generalizing depth seen with
  | intro value parts ih =>
    have below {part : Value} (within : PartOf store part value) :
        ∀ index ∈ seen, ∀ primitive,
          Relation.TransGen (PartOf store) part (.map ⟨⟨index⟩, primitive⟩) :=
      fun index member primitive => .head within (above index member primitive)
    cases isValue : value with
    | list items =>
      rw [jsonWith, Option.isSome_map, jsonItemsWith_eq_mapM]
      apply mapM_isSome
      intro item member
      have within : PartOf store item value := by
        rw [isValue]
        exact .item member
      exact ih item within different bounded (below within) enough
    | map map =>
      rcases map with ⟨⟨index⟩, primitive⟩
      have fewer := length_le_of_tables different bounded
      cases depth with
      | zero => omega
      | succ depth =>
        apply tableJson?_isSome
        rintro ⟨key, part⟩ member
        have within : PartOf store part value := by
          rw [isValue]
          exact .entry member
        have present : index < store.tables.size := by
          apply Decidable.byContradiction
          intro absent
          have none : store.tables[index]? = none :=
            Array.getElem?_eq_none (by omega)
          rw [Store.entries, none] at member
          cases member
        have new : index ∉ seen := by
          intro old
          have cycle := above index old primitive
          rw [← isValue] at cycle
          exact IsFinite.not_self (.intro value parts) cycle
        refine ih part within (List.nodup_cons.2 ⟨new, different⟩)
          (List.forall_mem_cons.2 ⟨present, bounded⟩)
          (List.forall_mem_cons.2 ⟨?_, below within⟩) ?_
        · intro other
          have direct :
              Relation.TransGen (PartOf store) part
                (.map ⟨⟨index⟩, primitive⟩) := by
            rw [← isValue]
            exact .single within
          exact transGen_map direct other
        · rw [List.length_cons]
          omega
    | _ => rfl

/--
The tables of the store are enough for the structured form of a finite value.
-/
theorem json?_isSome (finite : value.IsFinite store) :
    (value.json? store).isSome = true :=
  jsonWith_of_isFinite finite List.nodup_nil (by simp) (by simp) (by simp)

/-- So every finite value has a text. -/
theorem text?_of_isFinite (finite : value.IsFinite store) :
    value.text? store ≠ none := by
  rcases Option.isSome_iff_exists.1 (json?_isSome finite) with ⟨made, isMade⟩
  cases value with
  | list | map => simp [text?, isMade]
  | bool value => cases value <;> simp [text?]
  | _ => simp [text?]

end Value

end Mustache
