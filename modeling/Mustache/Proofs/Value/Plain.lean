import Mustache.Proofs.Value.Depth
import Mustache.Proofs.Value.Pure
import Mustache.Value.Json

/-!
# Plain data

A template that reads from some data comes upon the data itself, the items of
the lists and the values of the maps that it has come upon.  Data is plain when
no lambda is among them, and no map with a primitive conversion.  Then nothing
that a template reads calls a function, and the store stays as it is.
Structured data makes plain data (`plainData_ofJson`).
-/

namespace Mustache

/--
`Value.Reaches store data value`: a template that reads from `data` may come
upon `value`.
-/
inductive Value.Reaches (store : Store) (data : Value) : Value → Prop where
  | data : Reaches store data data
  | item
      {items : List Value}
      {value : Value}
      (within : Reaches store data (.list items))
      (member : value ∈ items) :
      Reaches store data value
  | entry
      {owner value : Value}
      {key : String}
      (within : Reaches store data owner)
      (under : owner.get? store key = some value) :
      Reaches store data value

/-- Is a value neither a lambda nor a map with a primitive conversion? -/
def Value.isPlain : Value → Bool
  | .lambda _ | .map ⟨_, some _⟩ => false
  | _ => true

/-- All that a template comes upon in the data is plain. -/
def PlainData (store : Store) (data : Value) : Prop :=
  ∀ value, data.Reaches store value → value.isPlain = true

/--
What is closed under the items of lists and the values of maps holds all that is
reached.
-/
theorem Value.Reaches.closed
    {store : Store}
    {data value : Value}
    {known : Value → Prop}
    (reached : data.Reaches store value)
    (isData : known data)
    (items : ∀ items, known (.list items) → ∀ item ∈ items, known item)
    (entries :
      ∀ owner key value,
        known owner → owner.get? store key = some value → known value) :
    known value := by
  induction reached with
  | data => exact isData
  | item within member ih => exact items _ ih _ member
  | entry within under ih => exact entries _ _ _ ih under

/-- What plain data has under a key is plain data. -/
theorem PlainData.get?
    {store : Store}
    {data value : Value}
    {key : String}
    (plain : PlainData store data)
    (under : data.get? store key = some value) :
    PlainData store value := by
  intro inner reached
  refine plain inner (reached.closed (.entry .data under) ?_ ?_)
  · exact fun items within item member => within.item member
  · exact fun owner key value within found => within.entry found

/-- A store with plain values only makes plain data. -/
theorem plainData_of_isPlain
    {store : Store}
    {data : Value}
    (tables : store.holdsInDepth Value.isPlain = true)
    (plain : data.holdsInDepth Value.isPlain = true) :
    PlainData store data := by
  intro value reached
  apply Value.holds_of_depth (fun _ => rfl)
  apply reached.closed plain
  · exact fun items holds => Value.holdsInDepth_of_items holds
  · exact fun owner key value _ found => Store.holdsInDepth_of_get? tables found

/-! ## Reading from plain data -/

/--
Plain values that hold the items of their lists, the values of their maps and
`true`.
-/
structure PlainValues (store : Store) (known : Value → Prop) : Prop where
  plain : ∀ value, known value → value.isPlain = true
  item : ∀ items, known (.list items) → ∀ item ∈ items, known item
  entry :
    ∀ owner key value,
      known owner → owner.get? store key = some value → known value
  shown : known (.bool true)

/--
What is reached from plain data, with the value that inverted sections are
rendered for.
-/
theorem PlainData.values
    {store : Store}
    {data : Value}
    (plain : PlainData store data) :
    PlainValues store fun value =>
      value = .bool true ∨ data.Reaches store value where
  plain := by
    rintro value (rfl | reached)
    · rfl
    · exact plain value reached
  item := by
    rintro items (isTrue | reached) item member
    · cases isTrue
    · exact .inr (reached.item member)
  entry := by
    rintro owner key value (rfl | reached) found
    · cases found
    · exact .inr (reached.entry found)
  shown := .inl rfl

theorem toPrimitive?_of_isPlain
    {value : Value}
    (plain : value.isPlain = true)
    (lambdas : Lambdas) :
    value.toPrimitive? lambdas = pure none := by
  cases value with
  | map map =>
    rcases map with ⟨table, _ | primitive⟩
    · rfl
    · cases plain
  | _ => rfl

/-- Plain values are pure, whatever the functions do. -/
theorem PlainValues.pure
    {store : Store}
    {known : Value → Prop}
    (values : PlainValues store known)
    (lambdas : Lambdas) :
    PureValues lambdas store known where
  not_lambda lambda isKnown := by cases values.plain _ isKnown
  item := values.item
  entry := values.entry
  converts := by
    intro value isKnown
    refine ⟨none, ?_, ?_⟩
    · rw [toPrimitive?_of_isPlain (values.plain value isKnown)]
      rfl
    · rintro inner ⟨⟩
  shown := values.shown

/-! ## Structured data -/

namespace Value

/-- A table is made of entries that have a property in depth. -/
theorem holdsInDepth_push
    {property : Value → Bool}
    {store : Store}
    {entries : Entries Value}
    (tables : store.holdsInDepth property = true)
    (table : ∀ entry ∈ entries, entry.2.holdsInDepth property = true) :
    Store.holdsInDepth property ⟨store.tables.push entries⟩ = true := by
  simp only
    [Store.holdsInDepth, Array.toList_push, List.all_append, Bool.and_eq_true]
  exact ⟨tables, by simpa using table⟩

mutual

/-- Structured data makes plain values only, in the tables as well. -/
theorem isPlain_ofJson :
    ∀ (json : Json) {store : Store},
      store.holdsInDepth isPlain = true →
      (ofJson json store).1.holdsInDepth isPlain = true ∧
        (ofJson json store).2.holdsInDepth isPlain = true
  | .null, _, tables => ⟨rfl, tables⟩
  | .bool _, _, tables => ⟨rfl, tables⟩
  | .number _, _, tables => ⟨rfl, tables⟩
  | .string _, _, tables => ⟨rfl, tables⟩
  | .array items, _, tables => isPlain_ofJsonItems items tables
  | .object entries, _, tables => by
    have made := isPlain_ofJsonEntries entries tables
    exact ⟨rfl, holdsInDepth_push made.2 made.1⟩

theorem isPlain_ofJsonItems :
    ∀ (items : List Json) {store : Store},
      store.holdsInDepth isPlain = true →
      itemsHoldInDepth isPlain (ofJsonItems items store).1 = true ∧
        (ofJsonItems items store).2.holdsInDepth isPlain = true
  | [], _, tables => ⟨rfl, tables⟩
  | item :: rest, _, tables => by
    have first := isPlain_ofJson item tables
    have others := isPlain_ofJsonItems rest first.2
    exact ⟨Bool.and_eq_true_iff.2 ⟨first.1, others.1⟩, others.2⟩

theorem isPlain_ofJsonEntries :
    ∀ (entries : List (String × Json)) {store : Store},
      store.holdsInDepth isPlain = true →
      (∀ entry ∈ (ofJsonEntries entries store).1,
          entry.2.holdsInDepth isPlain = true) ∧
        (ofJsonEntries entries store).2.holdsInDepth isPlain = true
  | [], _, tables => ⟨by rintro _ ⟨⟩, tables⟩
  | (_, item) :: rest, _, tables => by
    have first := isPlain_ofJson item tables
    have others := isPlain_ofJsonEntries rest first.2
    exact ⟨List.forall_mem_cons.2 ⟨first.1, others.1⟩, others.2⟩

end

end Value

/-- Structured data is plain once it was made a value in a new store. -/
theorem plainData_ofJson (json : Json) :
    PlainData (Value.ofJson json .empty).2 (Value.ofJson json .empty).1 := by
  have made : (Value.ofJson json .empty).1.holdsInDepth Value.isPlain = true ∧
      (Value.ofJson json .empty).2.holdsInDepth Value.isPlain = true :=
    Value.isPlain_ofJson json rfl
  exact plainData_of_isPlain made.2 made.1

end Mustache
