import Mustache.Proofs.Value.Finite
import Mustache.Value.Equality

/-!
# Values that depict structured data

A value depicts structured data when it has the same form: lists for arrays, and
maps whose tables have the same keys for objects.  Making a value of structured
data makes one that depicts it (`Value.depicts_ofJson`), and a value that
depicts it is finite and has it as its structured form
(`Value.Depicts.json?_eq`).  What depicts the same data is equal and has the
same text (`Value.Depicts.same?_eq`, `Value.Depicts.text?_eq`).
-/

namespace Mustache

/-- The second store has the tables of the first one, and perhaps more. -/
structure Store.Grows (store after : Store) : Prop where
  size_le : store.tables.size ≤ after.tables.size
  entries_eq : ∀ table : TableId, table.index < store.tables.size →
    after.entries table = store.entries table

namespace Store

theorem Grows.refl (store : Store) : store.Grows store :=
  ⟨Nat.le_refl _, fun _ _ => rfl⟩

theorem Grows.trans
    {store after further : Store}
    (first : store.Grows after)
    (second : after.Grows further) :
    store.Grows further where
  size_le := first.size_le.trans second.size_le
  entries_eq table present :=
    (second.entries_eq table (present.trans_le first.size_le)).trans
      (first.entries_eq table present)

theorem grows_push
    (store : Store)
    (entries : Entries Value) :
    store.Grows ⟨store.tables.push entries⟩ where
  size_le := by simp
  entries_eq table present := by
    simp [Store.entries, Array.getElem?_push, present.ne]

theorem entries_push_self
    (store : Store)
    (entries : Entries Value) :
    Store.entries ⟨store.tables.push entries⟩ ⟨store.tables.size⟩ =
      entries := by
  simp [Store.entries]

end Store

theorem Number.same_self (number : Number) : number.same number = true := by
  cases number <;> simp [Number.same, Binary64.same]

namespace Value

mutual

/--
`Depicts store value json`: the value has the form of the structured data.
-/
inductive Depicts (store : Store) : Value → Json → Prop where
  | null : Depicts store .null .null
  | bool (value : Bool) : Depicts store (.bool value) (.bool value)
  | number (value : Number) : Depicts store (.number value) (.number value)
  | string (value : String) : Depicts store (.string value) (.string value)
  | list
      {items : List Value}
      {jsons : List Json}
      (each : DepictsItems store items jsons) :
      Depicts store (.list items) (.array jsons)
  | map
      {map : MapRef}
      {jsons : List (String × Json)}
      (present : map.table.index < store.tables.size)
      (each : DepictsEntries store (map.entries store) jsons) :
      Depicts store (.map map) (.object jsons)

/-- The items of a list have the forms of the items of an array. -/
inductive DepictsItems (store : Store) : List Value → List Json → Prop where
  | nil : DepictsItems store [] []
  | cons
      {item : Value}
      {json : Json}
      {items : List Value}
      {jsons : List Json}
      (first : Depicts store item json)
      (others : DepictsItems store items jsons) :
      DepictsItems store (item :: items) (json :: jsons)

/--
The entries of a table have the keys of an object, and the forms of its values.
-/
inductive DepictsEntries (store : Store) :
    Entries Value → List (String × Json) → Prop where
  | nil : DepictsEntries store [] []
  | cons
      {key : String}
      {value : Value}
      {json : Json}
      {entries : Entries Value}
      {jsons : List (String × Json)}
      (first : Depicts store value json)
      (others : DepictsEntries store entries jsons) :
      DepictsEntries store ((key, value) :: entries) ((key, json) :: jsons)

end

variable {store after : Store} {value : Value} {json : Json}

/-! ## Making a value of structured data -/

mutual

/-- New tables change no form. -/
theorem Depicts.grows (grows : store.Grows after) :
    ∀ {value : Value} {json : Json},
      Depicts store value json → Depicts after value json
  | _, _, .null => .null
  | _, _, .bool value => .bool value
  | _, _, .number value => .number value
  | _, _, .string value => .string value
  | _, _, .list each => .list (each.grows grows)
  | .map reference, _, .map present each => by
    refine .map (present.trans_le grows.size_le) ?_
    rw [MapOf.entries, grows.entries_eq reference.table present]
    exact each.grows grows

theorem DepictsItems.grows (grows : store.Grows after) :
    ∀ {items : List Value} {jsons : List Json},
      DepictsItems store items jsons → DepictsItems after items jsons
  | _, _, .nil => .nil
  | _, _, .cons first others => .cons (first.grows grows) (others.grows grows)

theorem DepictsEntries.grows (grows : store.Grows after) :
    ∀ {entries : Entries Value} {jsons : List (String × Json)},
      DepictsEntries store entries jsons → DepictsEntries after entries jsons
  | _, _, .nil => .nil
  | _, _, .cons first others => .cons (first.grows grows) (others.grows grows)

end

mutual

/--
Structured data makes a value that depicts it, and tables that were there stay.
-/
theorem depicts_ofJson :
    ∀ (json : Json) (store : Store),
      store.Grows (ofJson json store).2 ∧
      Depicts (ofJson json store).2 (ofJson json store).1 json
  | .null, store => ⟨.refl store, .null⟩
  | .bool value, store => ⟨.refl store, .bool value⟩
  | .number value, store => ⟨.refl store, .number value⟩
  | .string value, store => ⟨.refl store, .string value⟩
  | .array items, store => by
    rcases depicts_ofJsonItems items store with ⟨grows, each⟩
    exact ⟨grows, .list each⟩
  | .object entries, store => by
    rcases depicts_ofJsonEntries entries store with ⟨grows, each⟩
    have pushed :=
      (ofJsonEntries entries store).2.grows_push (ofJsonEntries entries store).1
    refine ⟨grows.trans pushed, .map ?_ ?_⟩
    · exact (Array.size_push _).symm ▸ Nat.lt_succ_self _
    · rw [MapOf.entries]
      exact (Store.entries_push_self ..).symm ▸ each.grows pushed

theorem depicts_ofJsonItems :
    ∀ (jsons : List Json) (store : Store),
      store.Grows (ofJsonItems jsons store).2 ∧
      DepictsItems (ofJsonItems jsons store).2 (ofJsonItems jsons store).1 jsons
  | [], store => ⟨.refl store, .nil⟩
  | json :: jsons, store => by
    rcases depicts_ofJson json store with ⟨grows, first⟩
    rcases depicts_ofJsonItems jsons (ofJson json store).2 with
      ⟨further, others⟩
    exact ⟨grows.trans further, .cons (first.grows further) others⟩

theorem depicts_ofJsonEntries :
    ∀ (jsons : List (String × Json)) (store : Store),
      store.Grows (ofJsonEntries jsons store).2 ∧
      DepictsEntries (ofJsonEntries jsons store).2 (ofJsonEntries jsons store).1
        jsons
  | [], store => ⟨.refl store, .nil⟩
  | (_, json) :: jsons, store => by
    rcases depicts_ofJson json store with ⟨grows, first⟩
    rcases depicts_ofJsonEntries jsons (ofJson json store).2 with
      ⟨further, others⟩
    exact ⟨grows.trans further, .cons (first.grows further) others⟩

end

/-! ## The structured form -/

mutual

/-- What depicts structured data has an end, as the data has. -/
theorem Depicts.isFinite :
    ∀ {value : Value} {json : Json},
      Depicts store value json → value.IsFinite store
  | _, _, .null | _, _, .bool _ | _, _, .number _ | _, _, .string _ =>
    .intro _ nofun
  | _, _, .list each => by
    constructor
    rintro part (member | _)
    exact each.isFinite part member
  | _, _, .map _ each => by
    constructor
    rintro part (_ | member)
    exact each.isFinite _ part member

theorem DepictsItems.isFinite :
    ∀ {items : List Value} {jsons : List Json},
      DepictsItems store items jsons → ∀ item ∈ items, item.IsFinite store
  | _, _, .nil => nofun
  | _, _, .cons first others =>
    List.forall_mem_cons.2 ⟨first.isFinite, others.isFinite⟩

theorem DepictsEntries.isFinite :
    ∀ {entries : Entries Value} {jsons : List (String × Json)},
      DepictsEntries store entries jsons →
      ∀ key value, (key, value) ∈ entries → value.IsFinite store
  | _, _, .nil => nofun
  | _, _, .cons first others => by
    rintro key value (_ | ⟨_, member⟩)
    · exact first.isFinite
    · exact others.isFinite key value member

end

mutual

/--
Whatever number of maps is followed, there is no other form than the one that is
depicted.
-/
theorem Depicts.form_eq :
    ∀ {value : Value} {json form : Json} {depth : Nat},
      Depicts store value json →
      jsonWith (tableJson? store depth) value = some form →
      form = json
  | _, _, _, _, .null, formed
  | _, _, _, _, .bool _, formed
  | _, _, _, _, .number _, formed
  | _, _, _, _, .string _, formed => (Option.some.inj formed).symm
  | _, _, _, _, .list each, formed => by
    rcases Option.map_eq_some_iff.1 formed with ⟨forms, areForms, rfl⟩
    rw [each.forms_eq areForms]
  | _, _, _, 0, .map _ _, formed => by cases formed
  | _, _, _, depth + 1, .map _ each, formed => by
    rw [jsonWith, tableJson?_succ] at formed
    rcases Option.map_eq_some_iff.1 formed with ⟨forms, areForms, rfl⟩
    rw [each.forms_eq areForms]

theorem DepictsItems.forms_eq :
    ∀ {items : List Value} {jsons forms : List Json} {depth : Nat},
      DepictsItems store items jsons →
      jsonItemsWith (tableJson? store depth) items = some forms →
      forms = jsons
  | _, _, _, _, .nil, formed => (Option.some.inj formed).symm
  | _, _, _, _, .cons first others, formed => by
    simp only [jsonItemsWith, bind, Option.bind_eq_some_iff] at formed
    rcases formed with ⟨form, isForm, forms, areForms, isWhole⟩
    cases isWhole
    rw [first.form_eq isForm, others.forms_eq areForms]

theorem DepictsEntries.forms_eq :
    ∀ {entries : Entries Value} {jsons forms : List (String × Json)}
        {depth : Nat},
      DepictsEntries store entries jsons →
      entries.mapM (entryJsonWith (tableJson? store depth)) = some forms →
      forms = jsons
  | _, _, _, _, .nil, formed => (Option.some.inj formed).symm
  | _, _, _, _, .cons first others, formed => by
    simp only [List.mapM_cons, bind, Option.bind_eq_some_iff, entryJsonWith,
      Option.map_eq_some_iff] at formed
    rcases formed with ⟨_, ⟨form, isForm, rfl⟩, forms, areForms, isWhole⟩
    cases isWhole
    rw [first.form_eq isForm, others.forms_eq areForms]

end

/-- A value has the structured data that it depicts as its structured form. -/
theorem Depicts.json?_eq (depicts : Depicts store value json) :
    value.json? store = some json := by
  rcases Option.isSome_iff_exists.1 (json?_isSome depicts.isFinite) with
    ⟨form, formed⟩
  rw [formed, depicts.form_eq formed]

/-- What depicts the same structured data has the same text. -/
theorem Depicts.text?_eq
    {again : Value}
    (depicts : Depicts store value json)
    (other : Depicts after again json) :
    again.text? after = value.text? store := by
  have form := depicts.json?_eq
  have sameForm := other.json?_eq
  cases depicts with
  | list | map =>
    cases other
    simp only [text?, form, sameForm]
  | _ =>
    cases other
    rfl

/-! ## Keys -/

theorem DepictsEntries.get?_rel
    {entries : Entries Value}
    {jsons : List (String × Json)}
    (each : DepictsEntries store entries jsons)
    (key : String) :
    Option.Rel (Depicts store) (entries.get? key) (Entries.get? jsons key) := by
  induction jsons generalizing entries with
  | nil =>
    cases each
    exact .none
  | cons entry jsons ih =>
    rcases each with _ | ⟨first, others⟩
    unfold Entries.get?
    split
    · exact .some first
    · exact ih others

/-- A key is found in a value and in what the value depicts. -/
theorem Depicts.get?_rel
    (depicts : Depicts store value json)
    (key : String) :
    Option.Rel (Depicts store) (value.get? store key) (json.get? key) := by
  cases depicts with
  | map _ each => exact each.get?_rel key
  | _ => exact .none

theorem Depicts.ne_lambda
    (depicts : Depicts store value json)
    (lambda : Lambda) :
    value ≠ .lambda lambda := by
  rintro rfl
  cases depicts

/-! ## Equality -/

theorem DepictsEntries.length_eq :
    ∀ {entries : Entries Value} {jsons : List (String × Json)},
      DepictsEntries store entries jsons → entries.length = jsons.length
  | _, _, .nil => rfl
  | _, _, .cons _ others => congrArg (· + 1) others.length_eq

mutual

/--
With a bound that is enough for the structured form of one, both are found to be
equal.
-/
theorem Depicts.same_eq :
    ∀ {first second : Value} {json form : Json} {depth bound : Nat},
      Depicts store first json → Depicts store second json →
      jsonWith (tableJson? store depth) first = some form → depth ≤ bound →
      sameWith (sameTables store bound) first second = some true
  | _, _, _, _, _, _, .null, .null, _, _ => rfl
  | _, _, _, _, _, _, .bool value, .bool _, _, _ => by simp [sameWith]
  | _, _, _, _, _, _, .number value, .number _, _, _ =>
    by simp [sameWith, Number.same_self]
  | _, _, _, _, _, _, .string value, .string _, _, _ => by simp [sameWith]
  | _, _, _, _, _, _, .list each, .list others, formed, enough => by
    rcases Option.map_eq_some_iff.1 formed with ⟨forms, areForms, -⟩
    exact each.same_eq others areForms enough
  | _, _, _, _, 0, _, .map _ _, .map _ _, formed, _ => by cases formed
  | _, _, _, _, depth + 1, 0, .map _ _, .map _ _, _, enough => by omega
  | _, _, _, _, depth + 1, bound + 1, .map _ each, .map _ others, formed,
      enough =>
    by
    rw [jsonWith, tableJson?_succ] at formed
    rcases Option.map_eq_some_iff.1 formed with ⟨forms, areForms, -⟩
    rw [sameWith, sameTables]
    split
    · rfl
    · exact (if_pos (each.length_eq.trans others.length_eq.symm)).trans
        (each.same_eq others areForms (Nat.le_of_succ_le_succ enough))

theorem DepictsItems.same_eq :
    ∀ {first second : List Value} {jsons forms : List Json} {depth bound : Nat},
      DepictsItems store first jsons → DepictsItems store second jsons →
      jsonItemsWith (tableJson? store depth) first = some forms →
      depth ≤ bound →
      sameItemsWith (sameTables store bound) first second = some true
  | _, _, _, _, _, _, .nil, .nil, _, _ => rfl
  | _, _, _, _, _, _, .cons first others, .cons second rest, formed, enough =>
    by
    simp only [jsonItemsWith, bind, Option.bind_eq_some_iff] at formed
    rcases formed with ⟨form, isForm, forms, areForms, -⟩
    simp [sameItemsWith, first.same_eq second isForm enough,
      others.same_eq rest areForms enough]

theorem DepictsEntries.same_eq :
    ∀ {first second : Entries Value} {jsons forms : List (String × Json)}
        {depth bound : Nat},
      DepictsEntries store first jsons → DepictsEntries store second jsons →
      first.mapM (entryJsonWith (tableJson? store depth)) = some forms →
      depth ≤ bound →
      allSame
          (fun (firstKey, firstValue) (secondKey, secondValue) =>
            if firstKey = secondKey then
              sameWith (sameTables store bound) firstValue secondValue
            else
              some false)
          first second =
        some true
  | _, _, _, _, _, _, .nil, .nil, _, _ => rfl
  | _, _, _, _, _, _, .cons first others, .cons second rest, formed, enough =>
    by
    simp only [List.mapM_cons, bind, Option.bind_eq_some_iff, entryJsonWith,
      Option.map_eq_some_iff] at formed
    rcases formed with ⟨_, ⟨form, isForm, rfl⟩, forms, areForms, -⟩
    simp [allSame, first.same_eq second isForm enough,
      others.same_eq rest areForms enough]

end

/-- Values that depict the same structured data are equal. -/
theorem Depicts.same?_eq
    {other : Value}
    (depicts : Depicts store value json)
    (again : Depicts store other json) :
    value.same? other store = some true := by
  have enough :
      store.tables.size + 1 ≤ store.tables.size * store.tables.size + 1 :=
    Nat.succ_le_succ (Nat.le_mul_self _)
  exact depicts.same_eq again depicts.json?_eq enough

end Value

end Mustache
