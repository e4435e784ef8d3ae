/-!
# Template text

Template text is a list of characters, and a place in it is the number of UTF-8
bytes before it.  `byteSize` measures a text, and `splitAt?` cuts it at a byte
offset; the cut exists exactly when the offset falls between two characters
(`splitAt?_eq_some_iff`).
-/

namespace Mustache

/-- Template source, a character at a time. -/
abbrev Text := List Char

namespace Text

/-- The number of UTF-8 bytes of a text, added to those counted before it. -/
def byteSizeFrom (counted : Nat) : Text → Nat
  | [] => counted
  | character :: rest => byteSizeFrom (counted + character.utf8Size) rest

/-- The number of UTF-8 bytes of a text. -/
def byteSize (text : Text) : Nat :=
  byteSizeFrom 0 text

theorem byteSizeFrom_eq
    (counted : Nat)
    (text : Text) :
    byteSizeFrom counted text = counted + byteSize text := by
  unfold byteSize
  induction text generalizing counted with
  | nil => rfl
  | cons character rest ih =>
    simp only [byteSizeFrom]
    rw [ih, ih (0 + _)]
    omega

@[simp]
theorem byteSize_nil : byteSize [] = 0 :=
  rfl

@[simp]
theorem byteSize_cons
    (character : Char)
    (text : Text) :
    byteSize (character :: text) = character.utf8Size + byteSize text := by
  show byteSizeFrom (0 + character.utf8Size) text = _
  rw [byteSizeFrom_eq, Nat.zero_add]

@[simp]
theorem byteSize_append (first second : Text) :
    byteSize (first ++ second) = byteSize first + byteSize second := by
  induction first with
  | nil => simp
  | cons character rest ih => simp [ih, Nat.add_assoc]

@[simp]
theorem byteSize_reverse (text : Text) :
    byteSize text.reverse = byteSize text := by
  induction text with
  | nil => rfl
  | cons character rest ih => simp [ih, Nat.add_comm]

@[simp]
theorem byteSize_eq_zero {text : Text} : byteSize text = 0 ↔ text = [] := by
  cases text with
  | nil => simp
  | cons character rest =>
    have := character.utf8Size_pos
    simp only [byteSize_cons, reduceCtorEq, iff_false]
    omega

/--
The characters before a byte offset, the last one first, and the text after it,
given the characters already passed.
-/
def walk (passed : Text) : Text → Nat → Option (Text × Text)
  | rest, 0 => some (passed, rest)
  | [], _ + 1 => none
  | character :: rest, offset + 1 =>
    if character.utf8Size ≤ offset + 1 then
      walk (character :: passed) rest (offset + 1 - character.utf8Size)
    else
      none

/--
Cut a text at a byte offset.  There is no cut inside a character or beyond the
end.
-/
def splitAt? (text : Text) (offset : Nat) : Option (Text × Text) :=
  (walk [] text offset).map fun (passed, after) => (passed.reverse, after)

theorem walk_eq_some_iff
    {start text passed after : Text}
    {offset : Nat} :
    walk start text offset = some (passed, after) ↔
      ∃ taken,
        passed = taken.reverse ++ start ∧
        text = taken ++ after ∧
        byteSize taken = offset := by
  induction text generalizing start offset with
  | nil =>
    cases offset with
    | zero =>
      simp only [walk, Option.some.injEq, Prod.mk.injEq]
      constructor
      · rintro ⟨rfl, rfl⟩
        exact ⟨[], by simp⟩
      · rintro ⟨taken, rfl, equality, size⟩
        rw [byteSize_eq_zero] at size
        subst size
        simpa using equality
    | succ offset =>
      simp only [walk, reduceCtorEq, false_iff]
      rintro ⟨taken, -, equality, size⟩
      have := (List.append_eq_nil_iff.1 equality.symm).1
      simp [this] at size
  | cons character rest ih =>
    cases offset with
    | zero =>
      simp only [walk, Option.some.injEq, Prod.mk.injEq]
      constructor
      · rintro ⟨rfl, rfl⟩
        exact ⟨[], by simp⟩
      · rintro ⟨taken, rfl, equality, size⟩
        rw [byteSize_eq_zero] at size
        subst size
        simpa using equality
    | succ offset =>
      simp only [walk]
      split
      · rename_i fits
        rw [ih]
        constructor
        · rintro ⟨taken, rfl, rfl, size⟩
          refine ⟨character :: taken, by simp, by simp, ?_⟩
          simp only [byteSize_cons]
          omega
        · rintro ⟨taken, rfl, equality, size⟩
          cases taken with
          | nil => simp at size
          | cons head tail =>
            simp only [List.cons_append, List.cons.injEq] at equality
            obtain ⟨rfl, rfl⟩ := equality
            refine ⟨tail, by simp, rfl, ?_⟩
            simp only [byteSize_cons] at size
            omega
      · rename_i fits
        simp only [reduceCtorEq, false_iff]
        rintro ⟨taken, -, equality, size⟩
        cases taken with
        | nil => simp at size
        | cons head tail =>
          simp only [List.cons_append, List.cons.injEq] at equality
          obtain ⟨rfl, -⟩ := equality
          simp only [byteSize_cons] at size
          omega

theorem byteSize_of_walk
    {start text passed after : Text}
    {offset : Nat}
    (walked : walk start text offset = some (passed, after)) :
    byteSize passed = byteSize start + offset ∧
    byteSize text = offset + byteSize after := by
  obtain ⟨taken, rfl, rfl, rfl⟩ := walk_eq_some_iff.1 walked
  simp [Nat.add_comm]

theorem walk_append
    {before : Text}
    {offset : Nat}
    (start after : Text)
    (fits : byteSize before ≤ offset) :
    walk start (before ++ after) offset =
      walk (before.reverse ++ start) after (offset - byteSize before) := by
  induction before generalizing start offset with
  | nil => rfl
  | cons character rest ih =>
    simp only [byteSize_cons] at fits
    have positive := character.utf8Size_pos
    obtain ⟨offset, rfl⟩ : ∃ smaller, offset = smaller + 1 :=
      ⟨offset - 1, by omega⟩
    rw [List.cons_append, walk, if_pos (by omega),
      ih (character :: start) (by omega)]
    simp only [byteSize_cons, List.reverse_cons, List.append_assoc,
      List.singleton_append]
    congr 1
    omega

theorem splitAt?_eq_some_iff
    {text before after : Text}
    {offset : Nat} :
    splitAt? text offset = some (before, after) ↔
      text = before ++ after ∧ byteSize before = offset := by
  simp only [splitAt?, Option.map_eq_some_iff, Prod.mk.injEq, Prod.exists]
  constructor
  · rintro ⟨passed, rest, walked, rfl, rfl⟩
    obtain ⟨taken, rfl, rfl, size⟩ := walk_eq_some_iff.1 walked
    simpa using size
  · rintro ⟨rfl, size⟩
    exact ⟨before.reverse, after,
      walk_eq_some_iff.2 ⟨before, by simp, rfl, size⟩, by simp⟩

end Text

end Mustache
