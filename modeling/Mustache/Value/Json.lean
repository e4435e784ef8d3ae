import Mustache.Json.Basic
import Mustache.Value.Basic

/-!
# Values as structured data and as text

Structured data becomes a value by making a table for every object.  In the
other direction a lambda becomes null, and a map is written with the entries it
has at the moment.

A map may be reached from its own entries.  Such a value has no finite form, so
the conversions give an optional result: they follow maps at most as often as
the store has tables, which every value without such a cycle allows for.
-/

namespace Mustache.Value

mutual

/-- Make a value of structured data. -/
def ofJson : Json → Effect Value
  | .null => pure null
  | .bool value => pure (bool value)
  | .number value => pure (number value)
  | .string value => pure (string value)
  | .array items => do
    let items ← ofJsonItems items
    pure (list items)
  | .object entries => do
    let entries ← ofJsonEntries entries
    let made ← MapOf.make entries none
    pure (map made)

/-- Make values of the items of an array. -/
def ofJsonItems : List Json → Effect (List Value)
  | [] => pure []
  | item :: rest => do
    let value ← ofJson item
    let values ← ofJsonItems rest
    pure (value :: values)

/-- Make values of the entries of an object. -/
def ofJsonEntries : List (String × Json) → Effect (Entries Value)
  | [] => pure []
  | (key, item) :: rest => do
    let value ← ofJson item
    let entries ← ofJsonEntries rest
    pure ((key, value) :: entries)

end

mutual

/-- The structured form of a value, given the form of a table. -/
def jsonWith (table : TableId → Option Json) : Value → Option Json
  | null | lambda _ => some .null
  | bool value => some (.bool value)
  | number value => some (.number value)
  | string value => some (.string value)
  | list items => (jsonItemsWith table items).map .array
  | map ⟨id, _⟩ => table id

/-- The structured forms of the items of a list. -/
def jsonItemsWith (table : TableId → Option Json) :
    List Value → Option (List Json)
  | [] => some []
  | item :: rest => do
    let json ← jsonWith table item
    let jsons ← jsonItemsWith table rest
    pure (json :: jsons)

end

/-- The structured form of a table, following a bounded number of maps. -/
def tableJson? (store : Store) : Nat → TableId → Option Json
  | 0, _ => none
  | depth + 1, id => do
    let entries ← (store.entries id).mapM fun (key, value) => do
      let json ← jsonWith (tableJson? store depth) value
      pure (key, json)
    pure (.object entries)

/-- The structured form of a value. -/
def json? (value : Value) (store : Store) : Option Json :=
  jsonWith (tableJson? store (store.tables.size + 1)) value

/--
The text that an interpolation shows.  Null and lambdas show nothing, a string
shows itself, and lists and maps show their compact structured form.
-/
def text? (value : Value) (store : Store) : Option String :=
  match value with
  | null | lambda _ => some ""
  | bool true => some "true"
  | bool false => some "false"
  | number value => some value.text
  | string value => some value
  | list _ | map _ => (value.json? store).map Json.text

end Mustache.Value
