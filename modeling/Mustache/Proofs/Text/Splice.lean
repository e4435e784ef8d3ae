import Mustache.Text.Basic

/-!
# Splicing a text

A splice puts a text in the place of a range of another one.  Both ends of the
range have to fall between two characters.  A range that lies within the first
or the second of two texts is spliced there, and the other text stays as it is
(`splice?_append_of_le`, `splice?_append_of_ge`).
-/

namespace Mustache.Text

/-- Put a text in the place of the bytes from `start` to `stop`. -/
def splice?
    (text : Text)
    (start stop : Nat)
    (replacement : Text) : Option Text :=
  match text.splitAt? start, text.splitAt? stop with
  | some (before, _), some (_, after) => some (before ++ (replacement ++ after))
  | _, _ => none

variable {first : Text} {start stop offset : Nat}

theorem splitAt?_append_of_le
    (fits : offset ≤ first.byteSize)
    (second : Text) :
    (first ++ second).splitAt? offset =
      (first.splitAt? offset).map fun (before, after) =>
        (before, after ++ second) := by
  ext ⟨before, after⟩
  simp only
    [splitAt?_eq_some_iff, Option.map_eq_some_iff, Prod.mk.injEq, Prod.exists]
  constructor
  · rintro ⟨equality, size⟩
    rcases List.append_eq_append_iff.1 equality with
      ⟨between, rfl, rfl⟩ | ⟨between, rfl, rfl⟩
    · have nothing : between = [] := by
        rw [byteSize_append] at size
        exact byteSize_eq_zero.1 (by omega)
      subst nothing
      exact ⟨first, [], ⟨by simp, by simpa using size⟩, by simp⟩
    · exact ⟨before, between, ⟨rfl, size⟩, rfl, rfl⟩
  · rintro ⟨_, between, ⟨rfl, size⟩, rfl, rfl⟩
    exact ⟨List.append_assoc .., size⟩

theorem splitAt?_append_of_ge
    (fits : first.byteSize ≤ offset)
    (second : Text) :
    (first ++ second).splitAt? offset =
      (second.splitAt? (offset - first.byteSize)).map fun (before, after) =>
        (first ++ before, after) := by
  ext ⟨before, after⟩
  simp only
    [splitAt?_eq_some_iff, Option.map_eq_some_iff, Prod.mk.injEq, Prod.exists]
  constructor
  · rintro ⟨equality, size⟩
    rcases List.append_eq_append_iff.1 equality with
      ⟨between, rfl, rfl⟩ | ⟨between, rfl, rfl⟩
    · rw [byteSize_append] at size
      exact ⟨between, after, ⟨rfl, by omega⟩, rfl, rfl⟩
    · have nothing : between = [] := by
        rw [byteSize_append] at fits
        exact byteSize_eq_zero.1 (by omega)
      subst nothing
      exact ⟨[], second, ⟨rfl, by simp [← size]⟩, by simp⟩
  · rintro ⟨between, _, ⟨rfl, size⟩, rfl, rfl⟩
    exact ⟨(List.append_assoc ..).symm, by rw [byteSize_append]; omega⟩

/-- A range within the first of two texts. -/
theorem splice?_append_of_le
    (ordered : start ≤ stop)
    (fits : stop ≤ first.byteSize)
    (second replacement : Text) :
    (first ++ second).splice? start stop replacement =
      (first.splice? start stop replacement).map (· ++ second) := by
  unfold splice?
  rw [splitAt?_append_of_le (Nat.le_trans ordered fits),
    splitAt?_append_of_le fits]
  cases first.splitAt? start <;> cases first.splitAt? stop <;> simp

/-- A range within the second of two texts. -/
theorem splice?_append_of_ge
    (ordered : start ≤ stop)
    (fits : first.byteSize ≤ start)
    (second replacement : Text) :
    (first ++ second).splice? start stop replacement =
      (second.splice? (start - first.byteSize) (stop - first.byteSize)
        replacement).map (first ++ ·) := by
  unfold splice?
  rw [splitAt?_append_of_ge fits,
    splitAt?_append_of_ge (Nat.le_trans fits ordered)]
  cases second.splitAt? (start - first.byteSize) <;>
    cases second.splitAt? (stop - first.byteSize) <;> simp

/-- The length of a spliced text. -/
theorem byteSize_of_splice?
    {text spliced replacement : Text}
    (ordered : start ≤ stop)
    (isSpliced : text.splice? start stop replacement = some spliced) :
    stop ≤ text.byteSize ∧
    spliced.byteSize =
      text.byteSize - (stop - start) + replacement.byteSize := by
  unfold splice? at isSpliced
  split at isSpliced
  · rename_i before _ _ after isStart isStop
    cases isSpliced
    rcases splitAt?_eq_some_iff.1 isStart with ⟨-, sizeBefore⟩
    rcases splitAt?_eq_some_iff.1 isStop with ⟨rfl, sizeStop⟩
    simp only [byteSize_append]
    omega
  · cases isSpliced

end Mustache.Text
