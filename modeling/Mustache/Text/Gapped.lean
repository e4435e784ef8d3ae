import Mustache.Text.Basic

/-!
# Text with a gap

A text that is edited at one place after another is kept in two parts, with a
gap between them.  The gap moves to where the next edit is, at a cost that grows
with the way it has to go and not with the length of the text.

Where the gap stands cannot be seen in the text: cutting a gapped text at a byte
offset is cutting its plain text there (`walkTo?_eq_walk`), moving the gap
changes nothing (`toText_moveTo?`), and replacing what follows the gap replaces
that part of the plain text (`toText_replaceNext?`).
-/

namespace Mustache

/-- A text in two parts, with the sizes of the first part and of both. -/
structure GappedText where
  /-- The characters before the gap, the last one first. -/
  passed : Text
  /-- The text after the gap. -/
  rest : Text
  /-- The byte offset of the gap. -/
  gap : Nat
  /-- The length of the text in bytes. -/
  size : Nat
  gap_eq : gap = passed.byteSize
  size_eq : size = gap + rest.byteSize

namespace GappedText

/-- A text with the gap at its start. -/
def ofText (text : Text) : GappedText :=
  ⟨[], text, 0, text.byteSize, rfl, (Nat.zero_add _).symm⟩

instance : Inhabited GappedText :=
  ⟨ofText []⟩

/-- The plain text. -/
def toText (content : GappedText) : Text :=
  content.passed.reverseAux content.rest

theorem toText_eq (content : GappedText) :
    content.toText = content.passed.reverse ++ content.rest :=
  List.reverseAux_eq

@[simp]
theorem toText_ofText (text : Text) : (ofText text).toText = text :=
  rfl

theorem byteSize_toText (content : GappedText) :
    content.toText.byteSize = content.size := by
  simp [toText_eq, content.size_eq, content.gap_eq]

/--
Move the gap forward by a number of bytes, unless that leads into a character.
-/
def forward? (content : GappedText) (bytes : Nat) : Option GappedText :=
  match walked : Text.walk content.passed content.rest bytes with
  | none => none
  | some (passed, rest) =>
    some
      { passed
        rest
        gap := content.gap + bytes
        size := content.size
        gap_eq := by
          have := Text.byteSize_of_walk walked
          have := content.gap_eq
          omega
        size_eq := by
          have := Text.byteSize_of_walk walked
          have := content.size_eq
          omega }

/--
Move the gap back by a number of bytes, unless that leads into a character.
-/
def back? (content : GappedText) (bytes : Nat) : Option GappedText :=
  match walked : Text.walk content.rest content.passed bytes with
  | none => none
  | some (rest, passed) =>
    some
      { passed
        rest
        gap := content.gap - bytes
        size := content.size
        gap_eq := by
          have := Text.byteSize_of_walk walked
          have := content.gap_eq
          omega
        size_eq := by
          have := Text.byteSize_of_walk walked
          have := content.gap_eq
          have := content.size_eq
          omega }

/-- Move the gap to a byte offset, if that falls between two characters. -/
def moveTo? (content : GappedText) (offset : Nat) : Option GappedText :=
  if content.gap ≤ offset then
    content.forward? (offset - content.gap)
  else
    content.back? (content.gap - offset)

/--
Move the gap to a byte offset, or leave it where it is if there is no place for
it there.
-/
def settle (content : GappedText) (offset : Nat) : GappedText :=
  (content.moveTo? offset).getD content

/--
The characters before a byte offset, the last one first, and the text after it,
if the offset falls between two characters.
-/
def walkTo? (content : GappedText) (offset : Nat) : Option (Text × Text) :=
  (content.moveTo? offset).map fun moved => (moved.passed, moved.rest)

/--
Put a text in the place of the given number of bytes after the gap, and the gap
after it.
-/
def replaceNext?
    (content : GappedText)
    (bytes : Nat)
    (replacement : Text) : Option GappedText :=
  match walked : Text.walk [] content.rest bytes with
  | none => none
  | some (_, after) =>
    let added := replacement.byteSize
    some
      { passed := replacement.reverseAux content.passed
        rest := after
        gap := content.gap + added
        size := content.size - bytes + added
        gap_eq := by
          have := content.gap_eq
          rw [List.reverseAux_eq, Text.byteSize_append, Text.byteSize_reverse]
          omega
        size_eq := by
          have := Text.byteSize_of_walk walked
          have := content.size_eq
          omega }

theorem toText_forward?
    {content moved : GappedText}
    {bytes : Nat}
    (found : content.forward? bytes = some moved) :
    moved.toText = content.toText := by
  unfold forward? at found
  split at found
  · simp at found
  · rename_i passed rest walked
    obtain ⟨taken, rfl, equality, -⟩ := Text.walk_eq_some_iff.1 walked
    obtain rfl := Option.some.inj found
    simp [toText_eq, equality]

theorem toText_back?
    {content moved : GappedText}
    {bytes : Nat}
    (found : content.back? bytes = some moved) :
    moved.toText = content.toText := by
  unfold back? at found
  split at found
  · simp at found
  · rename_i rest passed walked
    obtain ⟨taken, rfl, equality, -⟩ := Text.walk_eq_some_iff.1 walked
    obtain rfl := Option.some.inj found
    simp [toText_eq, equality]

theorem toText_moveTo?
    {content moved : GappedText}
    {offset : Nat}
    (found : content.moveTo? offset = some moved) :
    moved.toText = content.toText := by
  unfold moveTo? at found
  split at found
  · exact toText_forward? found
  · exact toText_back? found

@[simp]
theorem toText_settle
    (content : GappedText)
    (offset : Nat) :
    (content.settle offset).toText = content.toText := by
  unfold settle
  cases found : content.moveTo? offset with
  | none => rfl
  | some moved => exact toText_moveTo? found

/-- The parts that moving the gap forward leaves on its two sides. -/
theorem map_forward?
    (content : GappedText)
    (bytes : Nat) :
    (content.forward? bytes).map (fun moved => (moved.passed, moved.rest)) =
      Text.walk content.passed content.rest bytes := by
  unfold forward?
  split <;> rename_i walked <;> simp [walked]

/-- The parts that moving the gap back leaves on its two sides. -/
theorem map_back?
    (content : GappedText)
    (bytes : Nat) :
    (content.back? bytes).map (fun moved => (moved.rest, moved.passed)) =
      Text.walk content.rest content.passed bytes := by
  unfold back?
  split <;> rename_i walked <;> simp [walked]

theorem walkTo?_eq_walk
    (content : GappedText)
    (offset : Nat) :
    content.walkTo? offset = Text.walk [] content.toText offset := by
  have size : Text.byteSize content.passed.reverse = content.gap := by
    rw [Text.byteSize_reverse, content.gap_eq]
  unfold walkTo? moveTo?
  split
  · rename_i ahead
    rw [map_forward?, toText_eq, Text.walk_append [] content.rest (by omega),
      size]
    simp
  · rename_i behind
    ext ⟨passed, rest⟩
    rw [Text.walk_eq_some_iff]
    have back := map_back? content (content.gap - offset)
    constructor
    · intro found
      obtain ⟨moved, isMoved, equality⟩ := Option.map_eq_some_iff.1 found
      obtain ⟨rfl, rfl⟩ := Prod.mk.inj equality
      rw [isMoved, Option.map_some] at back
      obtain ⟨taken, front, rear, bytes⟩ := Text.walk_eq_some_iff.1 back.symm
      refine ⟨moved.passed.reverse, by simp, by simp [toText_eq, front, rear],
        ?_⟩
      have total := congrArg Text.byteSize rear
      rw [← content.gap_eq, Text.byteSize_append] at total
      rw [Text.byteSize_reverse]
      omega
    · rintro ⟨taken, rfl, equality, bytes⟩
      rw [List.append_nil]
      rw [toText_eq] at equality
      obtain ⟨between, rfl, -⟩ | ⟨between, front, rfl⟩ :=
        List.append_eq_append_iff.1 equality
      · rw [Text.byteSize_append, size] at bytes
        omega
      · have rear : content.passed = between.reverse ++ taken.reverse := by
          rw [← List.reverse_append, ← front, List.reverse_reverse]
        have walked :
            Text.walk content.rest content.passed (content.gap - offset) =
              some (between ++ content.rest, taken.reverse) := by
          refine Text.walk_eq_some_iff.2 ⟨between.reverse, by simp, rear, ?_⟩
          rw [content.gap_eq, rear, Text.byteSize_append,
            Text.byteSize_reverse taken]
          omega
        rw [walked] at back
        obtain ⟨moved, isMoved, parts⟩ := Option.map_eq_some_iff.1 back
        obtain ⟨equalRest, equalPassed⟩ := Prod.mk.inj parts
        simp [isMoved, equalRest, equalPassed]

theorem toText_replaceNext?
    (content : GappedText)
    (bytes : Nat)
    (replacement : Text) :
    (content.replaceNext? bytes replacement).map toText =
      (Text.walk [] content.rest bytes).map fun (_, after) =>
        content.passed.reverse ++ (replacement ++ after) := by
  unfold replaceNext?
  split <;> rename_i walked <;> simp [walked, toText_eq]

end GappedText

end Mustache
