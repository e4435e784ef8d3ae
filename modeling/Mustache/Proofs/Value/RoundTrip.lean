import Mustache.Proofs.Value.Depict

/-!
# Structured data and back

Structured data is the structured form of the value that is made of it, and a
finite value without lambdas equals the value that is made of its structured
form (`Value.json?_roundTrip`).  Primitive conversions have no say in this.
Where there are lambdas, the structured form is the one of the value that has
null in their place (`Value.json?_withoutLambdas`).
-/

namespace Mustache

namespace Value

variable {store : Store} {value part : Value}

/-! ## What a value is made of -/

/-- The value itself, its parts, and their parts. -/
def Within (store : Store) (part whole : Value) : Prop :=
  Relation.ReflTransGen (PartOf store) part whole

/-- Is the value no map, or a map of a table that the store has? -/
def isStored (store : Store) : Value → Bool
  | .map reference => decide (reference.table.index < store.tables.size)
  | _ => true

/-- No lambda is in the value. -/
def LambdaFree (store : Store) (value : Value) : Prop :=
  ∀ part : Value, part.Within store value → part.isNoLambda = true

/-- All maps in the value are maps of tables that the store has. -/
def Stored (store : Store) (value : Value) : Prop :=
  ∀ part : Value, part.Within store value → part.isStored store = true

/--
What all tables have in depth, and the value too, every part of the value has.
-/
theorem holds_of_within
    {property : Value → Bool}
    (lists : ∀ items, property (.list items) = true)
    (tables : store.holdsInDepth property = true)
    (holds : value.holdsInDepth property = true)
    (within : part.Within store value) :
    property part = true := by
  refine holds_of_depth lists ?_
  induction within using Relation.ReflTransGen.head_induction_on with
  | refl => exact holds
  | head isPart _ ih =>
    cases isPart with
    | item member => exact holdsInDepth_of_items ih _ member
    | entry member => exact Store.holdsInDepth_of_mem tables member

/-! ## Finite values depict structured data -/

theorem exists_depictsItems
    {items : List Value}
    (each : ∀ item ∈ items, ∃ json, Depicts store item json) :
    ∃ jsons, DepictsItems store items jsons := by
  induction items with
  | nil => exact ⟨[], .nil⟩
  | cons item items ih =>
    rcases List.forall_mem_cons.1 each with ⟨⟨json, first⟩, others⟩
    rcases ih others with ⟨jsons, rest⟩
    exact ⟨json :: jsons, .cons first rest⟩

theorem exists_depictsEntries
    {entries : Entries Value}
    (each : ∀ entry ∈ entries, ∃ json, Depicts store entry.2 json) :
    ∃ jsons, DepictsEntries store entries jsons := by
  induction entries with
  | nil => exact ⟨[], .nil⟩
  | cons entry entries ih =>
    rcases List.forall_mem_cons.1 each with ⟨⟨json, first⟩, others⟩
    rcases ih others with ⟨jsons, rest⟩
    exact ⟨(entry.1, json) :: jsons, .cons first rest⟩

/-- A finite value without lambdas has the form of some structured data. -/
theorem IsFinite.exists_depicts
    (finite : value.IsFinite store)
    (stored : value.Stored store)
    (free : value.LambdaFree store) :
    ∃ json, Depicts store value json := by
  induction finite with
  | intro value _ ih =>
    have below {part : Value} (isPart : PartOf store part value) :
        ∃ json, Depicts store part json :=
      ih part isPart (fun inner within => stored inner (within.tail isPart))
        (fun inner within => free inner (within.tail isPart))
    cases value with
    | null => exact ⟨_, .null⟩
    | bool value => exact ⟨_, .bool value⟩
    | number value => exact ⟨_, .number value⟩
    | string value => exact ⟨_, .string value⟩
    | list items =>
      rcases exists_depictsItems fun item member =>
        below (.item member) with ⟨jsons, each⟩
      exact ⟨_, .list each⟩
    | map reference =>
      rcases exists_depictsEntries fun entry member =>
        below (.entry member) with ⟨jsons, each⟩
      exact ⟨_, .map (of_decide_eq_true (stored _ .refl)) each⟩
    | lambda lambda => cases free _ .refl

/-! ## Null in the place of lambdas -/

mutual

/-- The value with null in the place of every lambda. -/
def withoutLambdas : Value → Value
  | .lambda _ => .null
  | .list items => .list (itemsWithoutLambdas items)
  | value => value

/-- Values with null in the place of every lambda. -/
def itemsWithoutLambdas : List Value → List Value
  | [] => []
  | item :: items => item.withoutLambdas :: itemsWithoutLambdas items

end

end Value

/-- The entries with null in the place of every lambda. -/
def Entries.withoutLambdas (entries : Entries Value) : Entries Value :=
  entries.map fun entry => (entry.1, entry.2.withoutLambdas)

/-- The store with null in the place of every lambda in its tables. -/
def Store.withoutLambdas (store : Store) : Store :=
  ⟨store.tables.map Entries.withoutLambdas⟩

theorem Store.entries_withoutLambdas
    (store : Store)
    (table : TableId) :
    store.withoutLambdas.entries table =
      (store.entries table).withoutLambdas := by
  simp only [Store.withoutLambdas, Store.entries, Array.getElem?_map]
  cases store.tables[table.index]? <;> rfl

namespace Value

mutual

theorem isNoLambda_withoutLambdas :
    ∀ value : Value, value.withoutLambdas.holdsInDepth isNoLambda = true
  | .null | .bool _ | .number _ | .string _ | .map _ | .lambda _ => rfl
  | .list items => isNoLambda_itemsWithoutLambdas items

theorem isNoLambda_itemsWithoutLambdas :
    ∀ items : List Value,
      itemsHoldInDepth isNoLambda (itemsWithoutLambdas items) = true
  | [] => rfl
  | item :: items =>
    Bool.and_eq_true_iff.2 ⟨isNoLambda_withoutLambdas item,
      isNoLambda_itemsWithoutLambdas items⟩

end

/-- No lambda is left. -/
theorem lambdaFree_withoutLambdas
    (store : Store)
    (value : Value) :
    value.withoutLambdas.LambdaFree store.withoutLambdas := by
  intro part within
  refine holds_of_within (fun _ => rfl) ?_ (isNoLambda_withoutLambdas value)
    within
  simp only [Store.holdsInDepth, Store.withoutLambdas, Entries.withoutLambdas,
    List.all_eq_true, Array.toList_map, List.forall_mem_map]
  exact fun entries _ entry _ => isNoLambda_withoutLambdas entry.2

mutual

theorem jsonWith_withoutLambdas (form : TableId → Option Json) :
    ∀ value : Value, jsonWith form value.withoutLambdas = jsonWith form value
  | .null | .bool _ | .number _ | .string _ | .map _ | .lambda _ => rfl
  | .list items =>
    congrArg (Option.map Json.array) (jsonItemsWith_withoutLambdas form items)

theorem jsonItemsWith_withoutLambdas (form : TableId → Option Json) :
    ∀ items : List Value,
      jsonItemsWith form (itemsWithoutLambdas items) = jsonItemsWith form items
  | [] => rfl
  | item :: items => by
    rw [itemsWithoutLambdas, jsonItemsWith, jsonItemsWith,
      jsonWith_withoutLambdas form item,
      jsonItemsWith_withoutLambdas form items]

end

theorem tableJson?_withoutLambdas
    (store : Store)
    (depth : Nat) :
    tableJson? store.withoutLambdas depth = tableJson? store depth := by
  induction depth with
  | zero => rfl
  | succ depth ih =>
    funext table
    have entry : entryJsonWith (tableJson? store depth) ∘
        (fun entry : String × Value => (entry.1, entry.2.withoutLambdas)) =
          entryJsonWith (tableJson? store depth) := by
      funext entry
      simp only [Function.comp, entryJsonWith, jsonWith_withoutLambdas]
    rw [tableJson?_succ, tableJson?_succ, ih, Store.entries_withoutLambdas,
      Entries.withoutLambdas, List.mapM_map, entry]

/-- The structured form does not tell a lambda from null. -/
theorem json?_withoutLambdas
    (store : Store)
    (value : Value) :
    value.withoutLambdas.json? store.withoutLambdas = value.json? store := by
  have size : store.withoutLambdas.tables.size = store.tables.size :=
    Array.size_map
  rw [json?, json?, size, tableJson?_withoutLambdas, jsonWith_withoutLambdas]

/--
Structured data is the form of the value that is made of it.  The other way
around, a finite value has a structured form, which is also the form of the
value with null in the place of the lambdas; and when there are none, the value
that is made of the form equals the first one, in either order, and has the same
text.
-/
theorem json?_roundTrip :
    (∀ (json : Json) (store : Store),
      (ofJson json store).1.json? (ofJson json store).2 = some json) ∧
    ∀ (store : Store) (value : Value),
      value.Stored store →
      value.IsFinite store →
      ∃ json,
        value.json? store = some json ∧
        value.withoutLambdas.LambdaFree store.withoutLambdas ∧
        value.withoutLambdas.json? store.withoutLambdas = some json ∧
        (value.LambdaFree store →
          let (again, after) := ofJson json store
          again.same? value after = some true ∧
          value.same? again after = some true ∧
          ∃ text,
            value.text? store = some text ∧
            value.text? after = some text ∧
            again.text? after = some text) := by
  refine ⟨fun json store => (depicts_ofJson json store).2.json?_eq, ?_⟩
  intro store value stored finite
  rcases Option.isSome_iff_exists.1 (json?_isSome finite) with ⟨json, formed⟩
  refine ⟨json, formed, lambdaFree_withoutLambdas store value,
    (json?_withoutLambdas store value).trans formed, fun free => ?_⟩
  rcases finite.exists_depicts stored free with ⟨shape, depicts⟩
  have isShape : shape = json :=
    Option.some.inj (depicts.json?_eq.symm.trans formed)
  subst isShape
  rcases depicts_ofJson shape store with ⟨grows, again⟩
  have stays := depicts.grows grows
  rcases Option.ne_none_iff_exists'.1 (text?_of_isFinite finite) with
    ⟨text, shown⟩
  exact ⟨again.same?_eq stays, stays.same?_eq again, text, shown,
    (depicts.text?_eq stays).trans shown, (depicts.text?_eq again).trans shown⟩

/-- A table that stands in a list as well, there with a primitive conversion. -/
theorem json?_roundTrip_shared :
    let store : Store :=
      ⟨#[[("a", .map ⟨⟨1⟩, none⟩),
            ("b", .list [.null, .map ⟨⟨1⟩, some ⟨⟨0⟩, none, none⟩⟩])],
          [("n", .number (.int 7))]]⟩
    let value : Value := .map ⟨⟨0⟩, some ⟨⟨1⟩, none, none⟩⟩
    value.Stored store ∧ value.IsFinite store ∧ value.LambdaFree store ∧
      ∃ json, value.json? store = some json ∧
        let (again, after) := ofJson json store
        again.same? value after = some true ∧
        value.same? again after = some true ∧
        ∃ text,
          value.text? store = some text ∧ again.text? after = some text := by
  intro store value
  have stored : value.Stored store := fun part =>
    holds_of_within (fun _ => rfl) (by decide) (by decide)
  have finite : value.IsFinite store := isFinite_of_isFiniteWithin 5 (by decide)
  have free : value.LambdaFree store := fun part =>
    holds_of_within (fun _ => rfl) (by decide) (by decide)
  rcases json?_roundTrip.2 store value stored finite with
    ⟨json, formed, -, -, back⟩
  rcases back free with ⟨same, sameAgain, text, shown, -, shownAgain⟩
  exact ⟨stored, finite, free, json, formed, same, sameAgain, text, shown,
    shownAgain⟩

end Value

end Mustache
