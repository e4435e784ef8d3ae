/-!
# Entries in key order

A table is a list of keys with values, in ascending order of the keys, which is
the order of their code points.  Writing under a key replaces what was there, so
no key occurs twice (`Entries.Sorted`).
-/

namespace Mustache

/-- Keys with values. -/
abbrev Entries (α : Type) := List (String × α)

namespace Entries

variable {α β : Type}

/-- The value under a key. -/
def get? (entries : Entries α) (key : String) : Option α :=
  match entries with
  | [] => none
  | (present, value) :: rest =>
    if present = key then some value else get? rest key

/-- Is there a value under a key? -/
def contains (entries : Entries α) (key : String) : Bool :=
  (entries.get? key).isSome

/-- Write a value under a key. -/
def insert (entries : Entries α) (key : String) (value : α) : Entries α :=
  match entries with
  | [] => [(key, value)]
  | (present, old) :: rest =>
    if present = key then (key, value) :: rest
    else if key < present then (key, value) :: (present, old) :: rest
    else (present, old) :: insert rest key value

/-- Remove a key. -/
def erase (entries : Entries α) (key : String) : Entries α :=
  match entries with
  | [] => []
  | (present, value) :: rest =>
    if present = key then rest else (present, value) :: erase rest key

/-- The keys, in ascending order. -/
def keys (entries : Entries α) : List String :=
  entries.map Prod.fst

/-- Write all entries of a second table into the first. -/
def insertAll (entries : Entries α) (added : List (String × α)) : Entries α :=
  added.foldl (fun entries (key, value) => entries.insert key value) entries

/--
The table of a list of entries; of two with the same key the later one counts.
-/
def ofList (entries : List (String × α)) : Entries α :=
  insertAll [] entries

/-- The keys ascend. -/
def Sorted (entries : Entries α) : Prop :=
  entries.Pairwise fun first second => first.1 < second.1

@[simp]
theorem get?_nil (key : String) : get? ([] : Entries α) key = none :=
  rfl

theorem get?_insert_self
    (entries : Entries α)
    (key : String)
    (value : α) :
    (entries.insert key value).get? key = some value := by
  induction entries with
  | nil => simp [insert, get?]
  | cons entry rest ih =>
    obtain ⟨present, old⟩ := entry
    unfold insert
    split
    · simp [get?]
    · rename_i different
      split
      · simp [get?]
      · simp [get?, different, ih]

theorem get?_insert_of_ne
    (entries : Entries α)
    {key other : String}
    (value : α)
    (different : key ≠ other) :
    (entries.insert key value).get? other = entries.get? other := by
  induction entries with
  | nil => simp [insert, get?, different]
  | cons entry rest ih =>
    obtain ⟨present, old⟩ := entry
    unfold insert
    split
    · rename_i equal
      subst equal
      simp [get?, different]
    · split
      · simp [get?, different]
      · simp only [get?, ih]

end Entries

end Mustache
