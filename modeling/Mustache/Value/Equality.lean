import Mustache.Value.Basic

/-!
# Equality of values

Lambdas are equal when they name the same function, whatever they are bound to.
Maps are equal when they refer to the same table or when their tables have equal
entries; primitive conversions do not count.  Comparing two maps that contain
themselves may have no answer.
-/

namespace Mustache.Value

/-- Compare the parts of two lists in order, up to the first difference. -/
def allSame
    {α β : Type}
    (same : α → β → Option Bool) : List α → List β → Option Bool
  | [], [] => some true
  | first :: rest, second :: others => do
    if ← same first second then allSame same rest others else pure false
  | _, _ => some false

mutual

/-- Compare two values, given how to compare two tables. -/
def sameWith (tables : TableId → TableId → Option Bool) :
    Value → Value → Option Bool
  | null, null => some true
  | bool first, bool second => some (first == second)
  | number first, number second => some (first.same second)
  | string first, string second => some (first == second)
  | list first, list second => sameItemsWith tables first second
  | map ⟨first, _⟩, map ⟨second, _⟩ => tables first second
  | lambda ⟨first, _, _⟩, lambda ⟨second, _, _⟩ => some (first == second)
  | _, _ => some false

/-- Compare two lists of values. -/
def sameItemsWith (tables : TableId → TableId → Option Bool) :
    List Value → List Value → Option Bool
  | [], [] => some true
  | first :: rest, second :: others => do
    if ← sameWith tables first second then
      sameItemsWith tables rest others
    else
      pure false
  | _, _ => some false

end

/-- Compare two tables, following a bounded number of maps. -/
def sameTables (store : Store) : Nat → TableId → TableId → Option Bool
  | 0, first, second => if first = second then some true else none
  | depth + 1, first, second =>
    if first = second then
      some true
    else
      let firstEntries := store.entries first
      let secondEntries := store.entries second
      if firstEntries.length = secondEntries.length then
        allSame
          (fun (firstKey, firstValue) (secondKey, secondValue) =>
            if firstKey = secondKey then
              sameWith (sameTables store depth) firstValue secondValue
            else
              some false)
          firstEntries secondEntries
      else
        some false

/--
Compare two values.  Every pair of tables that a comparison can meet without
going round in a cycle is within the bound.
-/
def same? (first second : Value) (store : Store) : Option Bool :=
  sameWith (sameTables store (store.tables.size * store.tables.size + 1)) first
    second

end Mustache.Value
