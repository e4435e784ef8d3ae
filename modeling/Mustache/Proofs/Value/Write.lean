import Mustache.Proofs.Context
import Mustache.Proofs.Entries
import Mustache.Proofs.Value.Finite

/-!
# Writing to a map

A value that is written under a key of a map is seen through all maps with the
same table, and nothing else changes (`MapOf.Written`).  Going through scopes, a
reader may come upon the table on the way to the map; but not when the value
that it starts from is finite.  So what led to the map through maps without
conversions still leads there (`Value.follow?_of_written`).
-/

namespace Mustache

namespace Store

variable {store : Store} {table : TableId}

theorem entries_write_self
    (present : table.index < store.tables.size)
    (entries : Entries Value) :
    (store.write table entries).entries table = entries := by
  simp [write, Store.entries, present]

theorem entries_write_of_ne
    {other : TableId}
    (different : other ≠ table)
    (entries : Entries Value) :
    (store.write table entries).entries other = store.entries other := by
  have indices : table.index ≠ other.index := by
    intro same
    exact different (congrArg TableId.mk same.symm)
  simp [write, Store.entries, indices]

theorem size_write
    (store : Store)
    (table : TableId)
    (entries : Entries Value) :
    (store.write table entries).tables.size = store.tables.size := by
  simp [write]

end Store

/--
The second store is the first one with a value written under a key of a map.  It
is there for all maps with the same table, and whatever else there is in any map
is as it was.
-/
structure MapOf.Written
    (map : MapRef)
    (key : String)
    (value : Value)
    (store after : Store) : Prop where
  size_eq : after.tables.size = store.tables.size
  entry_eq :
    ∀ shared : MapRef,
      shared.table = map.table → shared.get? after key = some value
  rest_eq :
    ∀ (shared : MapRef) (other : String),
      shared.table = map.table → other ≠ key →
      shared.get? after other = shared.get? store other
  others_eq :
    ∀ other : MapRef,
      other.table ≠ map.table → other.entries after = other.entries store

theorem MapOf.written_insert
    {map : MapRef}
    {store : Store}
    (present : map.table.index < store.tables.size)
    (key : String)
    (value : Value) :
    map.Written key value store (map.insert key value store).2 where
  size_eq := Store.size_write store map.table _
  entry_eq := by
    intro shared same
    show
      Entries.get? (Store.entries (store.write map.table _) shared.table) key =
        _
    rw [same, Store.entries_write_self present, Entries.get?_insert_self]
  rest_eq := by
    intro shared other same different
    show
      Entries.get? (Store.entries (store.write map.table _) shared.table)
          other =
        Entries.get? (store.entries shared.table) other
    rw [same, Store.entries_write_self present,
      Entries.get?_insert_of_ne _ _ different.symm]
    rfl
  others_eq other different := Store.entries_write_of_ne different _

namespace Value

variable
    {store after : Store}
    {value owner : Value}
    {segment : String}
    {scopes : List String}

/--
The value that scopes lead to from a value, through maps without conversions:
each scope is a key under which the value before it has such a map.
-/
def follow? (store : Store) : Value → List String → Option Value
  | value, [] => some value
  | value, segment :: scopes =>
    match value.get? store segment with
    | some (.map ⟨table, none⟩) => follow? store (.map ⟨table, none⟩) scopes
    | _ => none

theorem follow?_cons_eq_some
    (followed : value.follow? store (segment :: scopes) = some owner) :
    ∃ table,
      value.get? store segment = some (.map ⟨table, none⟩) ∧
      follow? store (.map ⟨table, none⟩) scopes = some owner := by
  rw [follow?] at followed
  split at followed
  · rename_i table under
    exact ⟨table, under, followed⟩
  · cases followed

theorem follow?_cons_of_get?
    {table : TableId}
    (under : value.get? store segment = some (.map ⟨table, none⟩))
    (scopes : List String) :
    value.follow? store (segment :: scopes) =
      follow? store (.map ⟨table, none⟩) scopes := by
  rw [follow?, under]

/-- Following scopes, one goes from a value to its parts. -/
theorem reflTransGen_of_follow?
    (followed : value.follow? store scopes = some owner) :
    Relation.ReflTransGen (PartOf store) owner value := by
  induction scopes generalizing value with
  | nil =>
    cases followed
    exact .refl
  | cons segment scopes ih =>
    rcases follow?_cons_eq_some followed with ⟨table, under, further⟩
    exact (ih further).tail (partOf_of_get? under)

/--
A finite value does not lead through the table of the map that it leads to.
-/
theorem follow?_of_written
    {map : MapRef}
    {key : String}
    {new : Value}
    (written : map.Written key new store after)
    (finite : value.IsFinite store)
    (followed : value.follow? store scopes = some (.map map)) :
    value.follow? after scopes = some (.map map) := by
  induction scopes generalizing value with
  | nil => exact followed
  | cons segment scopes ih =>
    rcases follow?_cons_eq_some followed with ⟨table, under, further⟩
    have within := partOf_of_get? under
    have stays : value.get? after segment = some (.map ⟨table, none⟩) := by
      cases value with
      | map whole =>
        have below : Relation.TransGen (PartOf store) (.map map) (.map whole) :=
          .tail' (reflTransGen_of_follow? further) within
        have different : whole.table ≠ map.table := by
          intro same
          have cycle := transGen_map below map.primitive
          rw [same] at cycle
          exact IsFinite.not_self (finite.inv_of_transGen below) cycle
        show Entries.get? (whole.entries after) segment = _
        rw [written.others_eq whole different]
        exact under
      | _ => cases under
    rw [follow?_cons_of_get? stays]
    exact ih (finite.inv within) further

end Value

namespace ContextStack

variable
    {lambdas : Lambdas}
    {store : Store}
    {value owner : Value}
    {scopes : List String}

/--
Scopes that lead through maps without conversions are gone through without a
call.
-/
theorem descend_of_follow?
    (followed : value.follow? store scopes = some owner)
    (lambdas : Lambdas)
    (text : Option String) :
    (ofRoot value).descend lambdas text scopes store =
      (some (ofRoot owner), store) := by
  induction scopes generalizing value with
  | nil =>
    cases followed
    rfl
  | cons segment scopes ih =>
    rcases Value.follow?_cons_eq_some followed with ⟨table, under, further⟩
    have found :
        (ofRoot value).lookup? store segment = some (.map ⟨table, none⟩) := by
      rw [lookup?_of_frames rfl, ofRoot, under]
      rfl
    rw [descend_cons, found]
    exact ih further

/-- A key behind such scopes stands for what their owner has under it. -/
theorem resolve_of_follow?
    (followed : value.follow? store scopes = some owner)
    (lambdas : Lambdas)
    (key : String)
    (text : Option String) :
    (ofRoot value).resolve lambdas (.path scopes key) text store =
      ((owner.get? store key).map (bindTo owner), store) := by
  rw [resolve_path, descend_of_follow? followed]
  exact congrArg (·, store) (lookup?_of_frames rfl store key)

end ContextStack

end Mustache
