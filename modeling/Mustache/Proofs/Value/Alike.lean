import Mustache.Proofs.Value.Write

/-!
# Stores that differ in one entry

Two stores may have the same tables, but for what one table has under one key
(`Store.AlikeBut`).  A value shows the difference only where the entry is looked
up (`Store.AlikeBut.get?_eq`), or where the whole table is written out as a part
of the value.  To tell whether it is, the table is made to contain itself
(`Store.looped`): what contains the table then has no text, and what has a text
has the same one in all such stores (`Value.text?_of_looped`).
-/

namespace Mustache

theorem Entries.get?_erase_of_ne
    {α : Type}
    (entries : Entries α)
    {key other : String}
    (different : key ≠ other) :
    (entries.erase key).get? other = entries.get? other := by
  induction entries with
  | nil => rfl
  | cons entry rest ih =>
    rcases entry with ⟨present, value⟩
    unfold Entries.erase
    split
    · rename_i isKey
      rw [Entries.get?, isKey, if_neg different]
    · simp only [Entries.get?, ih]

/-- Is a value a map of the given table? -/
def Value.isOf (table : TableId) : Value → Bool
  | .map ⟨other, _⟩ => other == table
  | _ => false

namespace Store

/--
The stores have the same tables, but for what one table has under one key.
-/
structure AlikeBut
    (table : TableId)
    (key : String)
    (store store' : Store) : Prop where
  size_eq : store.tables.size = store'.tables.size
  entries_eq :
    ∀ other, other ≠ table → store.entries other = store'.entries other
  erase_eq : (store.entries table).erase key = (store'.entries table).erase key

variable {table : TableId} {key : String} {store store' : Store}

theorem AlikeBut.refl (store : Store) : AlikeBut table key store store :=
  ⟨rfl, fun _ _ => rfl, rfl⟩

/-- Whatever is not the entry is found alike. -/
theorem AlikeBut.get?_eq
    (alike : AlikeBut table key store store')
    {frame : Value}
    {sought : String}
    (elsewhere : frame.isOf table = true → key ≠ sought) :
    frame.get? store sought = frame.get? store' sought := by
  cases frame with
  | map map =>
    show
      (store.entries map.table).get? sought =
        (store'.entries map.table).get? sought
    by_cases isTable : map.table = table
    · have different := elsewhere (by simp [Value.isOf, isTable])
      rw [isTable, ← Entries.get?_erase_of_ne _ different, alike.erase_eq,
        Entries.get?_erase_of_ne _ different]
    · rw [alike.entries_eq _ isTable]
  | _ => rfl

/--
The store with a table that contains itself in the place of the given one.
-/
def looped (store : Store) (table : TableId) : Store :=
  store.write table [("", .map ⟨table, none⟩)]

theorem entries_looped_self (present : table.index < store.tables.size) :
    (store.looped table).entries table = [("", .map ⟨table, none⟩)] :=
  entries_write_self present _

theorem entries_looped_of_ne
    {other : TableId}
    (different : other ≠ table) :
    (store.looped table).entries other = store.entries other :=
  entries_write_of_ne different _

theorem size_looped
    (store : Store)
    (table : TableId) :
    (store.looped table).tables.size = store.tables.size :=
  size_write store table _

theorem entries_of_size_le (absent : store.tables.size ≤ table.index) :
    store.entries table = [] := by
  simp [entries, absent]

end Store

namespace Value

theorem mapM_eq_some_of_imp
    {α β : Type}
    {step step' : α → Option β}
    {items : List α}
    {answers : List β}
    (imp :
      ∀ item ∈ items,
        ∀ answer, step item = some answer → step' item = some answer)
    (made : items.mapM step = some answers) :
    items.mapM step' = some answers := by
  induction items generalizing answers with
  | nil => exact made
  | cons item items ih =>
    rcases List.forall_mem_cons.1 imp with ⟨first, others⟩
    simp only [List.mapM_cons, bind, Option.bind_eq_some_iff] at made ⊢
    rcases made with ⟨answer, isAnswer, rest, areRest, isWhole⟩
    exact ⟨answer, first answer isAnswer, rest, ih others areRest, isWhole⟩

mutual

/-- What has a structured form keeps it as long as the tables keep theirs. -/
theorem jsonWith_of_imp
    {form form' : TableId → Option Json}
    (imp : ∀ table json, form table = some json → form' table = some json) :
    ∀ (value : Value) {json : Json},
      jsonWith form value = some json → jsonWith form' value = some json
  | .null, _, made | .bool _, _, made | .number _, _, made | .string _, _, made
  | .lambda _, _, made => made
  | .list items, _, made => by
    simp only [jsonWith, Option.map_eq_some_iff] at made ⊢
    rcases made with ⟨jsons, areJsons, isWhole⟩
    exact ⟨jsons, jsonItemsWith_of_imp imp items areJsons, isWhole⟩
  | .map ⟨table, _⟩, json, made => imp table json made

theorem jsonItemsWith_of_imp
    {form form' : TableId → Option Json}
    (imp : ∀ table json, form table = some json → form' table = some json) :
    ∀ (items : List Value) {jsons : List Json},
      jsonItemsWith form items = some jsons →
      jsonItemsWith form' items = some jsons
  | [], _, made => made
  | item :: rest, _, made => by
    simp only [jsonItemsWith, bind, Option.bind_eq_some_iff] at made ⊢
    rcases made with ⟨json, isJson, jsons, areJsons, isWhole⟩
    exact ⟨json, jsonWith_of_imp imp item isJson, jsons,
      jsonItemsWith_of_imp imp rest areJsons, isWhole⟩

end

variable {table : TableId} {key : String} {store store' : Store}

/-- A table that contains itself has no structured form. -/
theorem tableJson?_looped_self
    (present : table.index < store.tables.size)
    (depth : Nat) :
    tableJson? (store.looped table) depth table = none := by
  induction depth with
  | zero => rfl
  | succ depth ih =>
    simp [tableJson?, Store.entries_looped_self present, jsonWith, ih]

theorem tableJson?_of_looped
    (alike : store.AlikeBut table key store')
    (depth : Nat)
    (other : TableId)
    (json : Json)
    (made : tableJson? (store.looped table) depth other = some json) :
    tableJson? store' depth other = some json := by
  induction depth generalizing other json with
  | zero => cases made
  | succ depth ih =>
    have entries :
        (store.looped table).entries other = store'.entries other := by
      by_cases isTable : other = table
      · subst isTable
        by_cases present : other.index < store.tables.size
        · rw [tableJson?_looped_self present] at made
          cases made
        · have absent : store.tables.size ≤ other.index := by omega
          rw [Store.entries_of_size_le (by rwa [Store.size_looped]),
            Store.entries_of_size_le (by rwa [← alike.size_eq])]
      · rw [Store.entries_looped_of_ne isTable, alike.entries_eq other isTable]
    rw [tableJson?_succ, entries] at made
    rw [tableJson?_succ]
    rcases Option.map_eq_some_iff.1 made with ⟨forms, areForms, isWhole⟩
    refine Option.map_eq_some_iff.2
      ⟨forms, mapM_eq_some_of_imp ?_ areForms, isWhole⟩
    rintro ⟨key, value⟩ - form isForm
    rcases Option.map_eq_some_iff.1 isForm with ⟨inner, isInner, isEntry⟩
    exact Option.map_eq_some_iff.2
      ⟨inner, jsonWith_of_imp ih value isInner, isEntry⟩

/--
A value that does not contain the table has the same text in stores that are
alike.
-/
theorem text?_of_looped
    (alike : store.AlikeBut table key store')
    {value : Value}
    {text : String}
    (shown : value.text? (store.looped table) = some text) :
    value.text? store' = some text := by
  have json {json : Json}
      (made : value.json? (store.looped table) = some json) :
      value.json? store' = some json := by
    rw [json?, Store.size_looped] at made
    rw [json?, ← alike.size_eq]
    exact jsonWith_of_imp (tableJson?_of_looped alike _) value made
  cases value with
  | list | map =>
    simp only [text?, Option.map_eq_some_iff] at shown ⊢
    rcases shown with ⟨form, isForm, isText⟩
    exact ⟨form, json isForm, isText⟩
  | bool value => cases value <;> exact shown
  | _ => exact shown

end Value

end Mustache
