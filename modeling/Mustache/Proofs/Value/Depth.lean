import Mustache.Proofs.Entries
import Mustache.Value.Basic

/-!
# What holds of all that a store has

A property that all entries of all tables have in depth, the items of lists
included, is one that every value has that a map of the store has under a key.
-/

namespace Mustache

namespace Value

mutual

/-- Does a property hold of a value, or of what it holds if it is a list? -/
def holdsInDepth (property : Value → Bool) : Value → Bool
  | .list items => itemsHoldInDepth property items
  | value => property value

/-- Does a property hold of values in depth? -/
def itemsHoldInDepth (property : Value → Bool) : List Value → Bool
  | [] => true
  | item :: items =>
    holdsInDepth property item && itemsHoldInDepth property items

end

variable {property : Value → Bool} {value : Value}

theorem holds_of_depth
    (lists : ∀ items, property (.list items) = true)
    (holds : value.holdsInDepth property = true) :
    property value = true := by
  cases value with
  | list items => exact lists items
  | _ => exact holds

theorem holdsInDepth_of_items
    {items : List Value}
    (hold : holdsInDepth property (.list items) = true) :
    ∀ item ∈ items, item.holdsInDepth property = true := by
  induction items with
  | nil => simp
  | cons item items ih =>
    rcases Bool.and_eq_true_iff.1 hold with ⟨first, others⟩
    exact List.forall_mem_cons.2 ⟨first, ih others⟩

end Value

/-- Does a property hold in depth of all that the tables have? -/
def Store.holdsInDepth (property : Value → Bool) (store : Store) : Bool :=
  store.tables.toList.all fun entries =>
    entries.all fun entry => entry.2.holdsInDepth property

theorem Store.holdsInDepth_of_mem
    {property : Value → Bool}
    {store : Store}
    (holds : store.holdsInDepth property = true)
    {table : TableId}
    {entry : String × Value}
    (member : entry ∈ store.entries table) :
    entry.2.holdsInDepth property = true := by
  unfold Store.entries at member
  cases isTable : store.tables[table.index]? with
  | none =>
    rw [isTable] at member
    cases member
  | some entries =>
    rw [isTable] at member
    have present := Array.mem_toList_iff.2 (Array.mem_of_getElem? isTable)
    have all := List.all_eq_true.1 holds entries present
    exact List.all_eq_true.1 all entry member

theorem Store.holdsInDepth_of_get?
    {property : Value → Bool}
    {store : Store}
    (holds : store.holdsInDepth property = true)
    {owner value : Value}
    {key : String}
    (found : owner.get? store key = some value) :
    value.holdsInDepth property = true := by
  cases owner with
  | map map => exact Store.holdsInDepth_of_mem holds (Entries.mem_of_get? found)
  | _ => cases found

end Mustache
