import Mustache.Text.Gapped

/-!
# Text that is edited in place

A buffer is a text together with marks, positions in the text that keep their
place while the text around them is replaced.  The text has a gap at the place
of the last edit, which only tells how fast the next one is.  When a range is
replaced, every live mark at or after its end moves by the change in length; the
other marks stay where they are.  A mark may lie beyond the end of the text,
where offsets are counted in 64 bits: a mark that moves on from the last of them
starts again at zero.

A mark is live, released or invalid.  A released mark keeps reporting the
position it had, and an invalid mark has no position.  Only live marks take part
in edits, so they stand apart in a dense list whose entries name their slots;
releasing a mark moves the last entry of that list into the gap.
-/

namespace Mustache

/-- A position that a buffer keeps track of, named by its slot. -/
structure Mark where
  slot : Nat
deriving DecidableEq, Repr, Inhabited

/-- What a buffer knows about one mark. -/
inductive Slot where
  /--
  The mark moves with edits; its position is at this place of the live list.
  -/
  | live (index : Nat)
  /-- The mark stays at this position. -/
  | released (position : Nat)
  /-- The mark has no position. -/
  | invalid
deriving DecidableEq, Repr, Inhabited

/-- A live mark: where it is and which slot it belongs to. -/
structure LiveMark where
  position : Nat
  slot : Nat
deriving DecidableEq, Repr, Inhabited

/-- A text with the marks that were made in it. -/
structure Buffer where
  content : GappedText
  slots : Array Slot
  live : Array LiveMark
deriving Inhabited

/-- A place in a buffer: a byte offset, or wherever a mark is. -/
inductive Position where
  | offset (bytes : Nat)
  | mark (mark : Mark)
deriving DecidableEq, Repr, Inhabited

/--
An offset in a text of the given size, or one beyond its end, which has 64 bits.
-/
def wrapBeyond (size offset : Nat) : Nat :=
  if offset ≤ size then offset else offset % Nat.pow 2 64

theorem wrapBeyond_of_le
    {size offset : Nat}
    (within : offset ≤ size) :
    wrapBeyond size offset = offset :=
  if_pos within

theorem wrapBeyond_of_lt
    {size offset : Nat}
    (fits : offset < Nat.pow 2 64) :
    wrapBeyond size offset = offset := by
  unfold wrapBeyond
  split
  · rfl
  · exact Nat.mod_eq_of_lt fits

/--
Where a position lands when the bytes from `start` to `stop` become `added`
bytes and the text is then `size` bytes long.
-/
def rebase (start stop added size position : Nat) : Nat :=
  if stop ≤ position then
    wrapBeyond size (position - (stop - start) + added)
  else
    position

namespace Buffer

/-- A buffer without marks. -/
def ofText (text : Text) : Buffer :=
  ⟨GappedText.ofText text, #[], #[]⟩

/-- The text. -/
def text (buffer : Buffer) : Text :=
  buffer.content.toText

/-- The length of the text in bytes. -/
def size (buffer : Buffer) : Nat :=
  buffer.content.size

@[simp]
theorem text_ofText (text : Text) : (ofText text).text = text :=
  rfl

theorem byteSize_text (buffer : Buffer) : buffer.text.byteSize = buffer.size :=
  buffer.content.byteSize_toText

/-- The number of marks that still move with edits. -/
def liveCount (buffer : Buffer) : Nat :=
  buffer.live.size

/-- The offset of a mark, unless it is invalid. -/
def position? (buffer : Buffer) (mark : Mark) : Option Nat :=
  match buffer.slots[mark.slot]? with
  | some (.live index) => buffer.live[index]?.map LiveMark.position
  | some (.released position) => some position
  | some .invalid | none => none

/-- The offset of a position.  An invalid mark counts as the end of the text. -/
def offset (buffer : Buffer) : Position → Nat
  | .offset bytes => bytes
  | .mark mark => (buffer.position? mark).getD buffer.size

/--
The characters before a position, the last one first, and the text after it, if
the position falls between two characters.
-/
def walkTo? (buffer : Buffer) (position : Position) : Option (Text × Text) :=
  buffer.content.walkTo? (buffer.offset position)

theorem walkTo?_eq_walk
    (buffer : Buffer)
    (position : Position) :
    buffer.walkTo? position =
      Text.walk [] buffer.text (buffer.offset position) :=
  buffer.content.walkTo?_eq_walk _

/-- Get ready for reading and editing at a position. -/
def settle (buffer : Buffer) (position : Position) : Buffer :=
  { buffer with content := buffer.content.settle (buffer.offset position) }

@[simp]
theorem text_settle
    (buffer : Buffer)
    (position : Position) :
    (buffer.settle position).text = buffer.text :=
  buffer.content.toText_settle _

/-- The character that starts at a position. -/
def charAt? (buffer : Buffer) (position : Position) : Option Char :=
  match buffer.walkTo? position with
  | some (_, after) => after.head?
  | none => none

/-- The character that ends at a position. -/
def charBefore? (buffer : Buffer) (position : Position) : Option Char :=
  match buffer.walkTo? position with
  | some (passed, _) => passed.head?
  | none => none

/-- Does a pattern occur at a position? -/
def startsWithAt
    (buffer : Buffer)
    (position : Position)
    (pattern : Text) : Bool :=
  match buffer.walkTo? position with
  | some (_, after) => pattern.isPrefixOf after
  | none => false

/-- Two offsets in ascending order, neither beyond the end of the text. -/
def clamp (buffer : Buffer) (first second : Nat) : Nat × Nat :=
  (min (min first second) buffer.size, min (max first second) buffer.size)

/--
The characters before a range, the last one first, and the text within and after
it, if both ends fall between two characters.
-/
def splitRange?
    (buffer : Buffer)
    (first second : Position) : Option (Text × Text × Text) :=
  let (start, stop) := buffer.clamp (buffer.offset first) (buffer.offset second)
  match buffer.content.walkTo? start with
  | none => none
  | some (passed, rest) =>
    match Text.walk [] rest (stop - start) with
    | none => none
    | some (within, after) => some (passed, within.reverse, after)

/--
The text between two positions, in either order.  A range with an end inside a
character holds nothing.
-/
def substring (buffer : Buffer) (first second : Position) : Text :=
  match buffer.splitRange? first second with
  | some (_, within, _) => within
  | none => []

/-- The given number of bytes from a position on. -/
def bytesFrom (buffer : Buffer) (position : Position) (length : Nat) : Text :=
  buffer.substring position (.offset (buffer.offset position + length))

/--
Replace the text between two positions, in either order.  There is no answer
when an end of the range falls inside a character.
-/
def replaceRange?
    (buffer : Buffer)
    (first second : Position)
    (replacement : Text) : Option Buffer :=
  let (start, stop) := buffer.clamp (buffer.offset first) (buffer.offset second)
  match buffer.content.moveTo? start with
  | none => none
  | some opened =>
    match opened.replaceNext? (stop - start) replacement with
    | none => none
    | some content =>
      let added := replacement.byteSize
      let ⟨_, slots, live⟩ := buffer
      some
        ⟨content, slots, live.map fun entry =>
          { entry with
            position := rebase start stop added content.size entry.position }⟩

theorem text_replaceRange?
    (buffer : Buffer)
    (first second : Position)
    (replacement : Text) :
    (buffer.replaceRange? first second replacement).map text =
      (buffer.splitRange? first second).map fun (passed, _, after) =>
        passed.reverse ++ (replacement ++ after) := by
  unfold replaceRange? splitRange? GappedText.walkTo?
  simp only
  cases buffer.content.moveTo? _ with
  | none => rfl
  | some opened =>
    have replaced :=
      opened.toText_replaceNext?
        ((buffer.clamp (buffer.offset first) (buffer.offset second)).2 -
          (buffer.clamp (buffer.offset first) (buffer.offset second)).1)
        replacement
    simp only [Option.map_some]
    split <;> rename_i result <;> rw [result] at replaced <;> split <;>
      rename_i walked <;> simp_all [text]

/-- Make a live mark. -/
def mark (buffer : Buffer) (position : Position) : Mark × Buffer :=
  let offset := buffer.offset position
  let ⟨content, slots, live⟩ := buffer
  let slot := slots.size
  (⟨slot⟩, ⟨content, slots.push (.live live.size), live.push ⟨offset, slot⟩⟩)

/-- Apply a function to the position of a mark that is live. -/
def modifyPosition : Buffer → Mark → (Nat → Nat) → Buffer
  | ⟨content, slots, live⟩, mark, change =>
    match slots[mark.slot]? with
    | some (.live index) =>
      ⟨content, slots, live.modify index fun entry =>
        { entry with position := change entry.position }⟩
    | _ => ⟨content, slots, live⟩

/-- Move a live mark to a position. -/
def setPosition
    (buffer : Buffer)
    (mark : Mark)
    (position : Position) : Buffer :=
  let offset := buffer.offset position
  buffer.modifyPosition mark fun _ => offset

/-- Move a live mark forward. -/
def advance (buffer : Buffer) (mark : Mark) (bytes : Nat) : Buffer :=
  let size := buffer.size
  buffer.modifyPosition mark fun position => wrapBeyond size (position + bytes)

/-- Let a mark stay where it is from now on. -/
def release : Buffer → Mark → Buffer
  | ⟨content, slots, live⟩, mark =>
    match slots[mark.slot]? with
    | some (.live index) =>
      match live[index]?, live.back? with
      | some entry, some last =>
        let slots := slots.setIfInBounds mark.slot (.released entry.position)
        let slots :=
          if index + 1 < live.size then
            slots.setIfInBounds last.slot (.live index)
          else
            slots
        ⟨content, slots, (live.setIfInBounds index last).pop⟩
      | _, _ => ⟨content, slots, live⟩
    | _ => ⟨content, slots, live⟩

/-- Let every live mark stay where it is from now on. -/
def releaseAll (buffer : Buffer) : Buffer :=
  { buffer with
    slots :=
      buffer.live.foldl
        (fun slots entry =>
          slots.setIfInBounds entry.slot (.released entry.position))
        buffer.slots
    live := #[] }

/-- Take every mark's position away. -/
def invalidateAll (buffer : Buffer) : Buffer :=
  { buffer with
    slots := buffer.slots.map fun _ => .invalid
    live := #[] }

end Buffer

end Mustache
