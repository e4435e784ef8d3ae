import Mathlib.Data.Option.Basic
import Mustache.Proofs.Buffer.Marks
import Mustache.Proofs.Text.Splice

/-!
# The place of a mark

A live mark cuts the text of its buffer in two halves.  A replacement that does
not reach over the mark from both sides concerns one half only: the first if it
ends at or before the mark, and the second otherwise.  So text that is inserted
right at the mark comes to stand before it.

`stands_edit?` says so of one replacement, and `editAll?_keeps_place` of any
sequence of them, whose ranges may be given in any order, beyond the end, or by
marks that move themselves.
-/

namespace Mustache

/-- A range of bytes, and the text that is to take its place. -/
structure Splice where
  start : Nat
  stop : Nat
  replacement : Text
deriving DecidableEq, Repr

/-- The text before a place and the text after it. -/
structure Halves where
  before : Text
  after : Text
deriving DecidableEq, Repr

namespace Halves

/-- Splice the half a range lies in, if the range does not lie in both. -/
def splice? (halves : Halves) (splice : Splice) : Option Halves :=
  if splice.stop ≤ halves.before.byteSize then
    (halves.before.splice? splice.start splice.stop splice.replacement).map
      fun before => { halves with before }
  else
    (halves.after.splice? (splice.start - halves.before.byteSize)
      (splice.stop - halves.before.byteSize) splice.replacement).map
        fun after => { halves with after }

/-- Splice the halves several times. -/
def spliceAll? (halves : Halves) (splices : List Splice) : Option Halves :=
  splices.foldlM splice? halves

end Halves

namespace Buffer

/-- A replacement between two positions. -/
structure Edit where
  first : Position
  second : Position
  replacement : Text
deriving DecidableEq, Repr

/--
Make an edit.  There is no answer when an end of its range falls inside a
character.
-/
def edit? (buffer : Buffer) (edit : Edit) : Option Buffer :=
  buffer.replaceRange? edit.first edit.second edit.replacement

/-- Make several edits. -/
def editAll? (buffer : Buffer) (edits : List Edit) : Option Buffer :=
  edits.foldlM edit? buffer

/--
The range of an edit, its ends in ascending order and not beyond the end of the
text.
-/
def spliceOf (buffer : Buffer) (edit : Edit) : Splice :=
  let (start, stop) :=
    buffer.clamp (buffer.offset edit.first) (buffer.offset edit.second)
  ⟨start, stop, edit.replacement⟩

/--
The ranges of edits, each at the time it is made, up to the first that fails.
-/
def splicesOf : Buffer → List Edit → List Splice
  | _, [] => []
  | buffer, edit :: rest =>
    buffer.spliceOf edit ::
      match buffer.edit? edit with
      | some edited => edited.splicesOf rest
      | none => []

/-- No edit reaches over a mark from both sides at the time it is made. -/
def Spares (mark : Mark) : Buffer → List Edit → Prop
  | _, [] => True
  | buffer, edit :: rest =>
    ¬((buffer.spliceOf edit).start < buffer.offset (.mark mark) ∧
      buffer.offset (.mark mark) < (buffer.spliceOf edit).stop) ∧
    match buffer.edit? edit with
    | some edited => edited.Spares mark rest
    | none => True

instance decidableSpares
    (mark : Mark)
    (buffer : Buffer)
    (edits : List Edit) : Decidable (buffer.Spares mark edits) :=
  match edits with
  | [] => .isTrue trivial
  | edit :: rest =>
    match isEdited : buffer.edit? edit with
    | none =>
      decidable_of_iff
        (¬((buffer.spliceOf edit).start < buffer.offset (.mark mark) ∧
          buffer.offset (.mark mark) < (buffer.spliceOf edit).stop))
        (by simp [Spares, isEdited])
    | some edited =>
      have := decidableSpares mark edited rest
      decidable_of_iff
        (¬((buffer.spliceOf edit).start < buffer.offset (.mark mark) ∧
            buffer.offset (.mark mark) < (buffer.spliceOf edit).stop) ∧
          edited.Spares mark rest)
        (by simp [Spares, isEdited])

/-- A live mark stands between two halves of the text. -/
structure StandsBetween
    (buffer : Buffer)
    (mark : Mark)
    (halves : Halves) : Prop where
  text_eq : buffer.text = halves.before ++ halves.after
  live_eq : buffer.livePosition? mark = some halves.before.byteSize

variable {buffer : Buffer} {mark : Mark} {halves : Halves}

theorem text_edit?
    (buffer : Buffer)
    (edit : Edit) :
    (buffer.edit? edit).map text =
      buffer.text.splice? (buffer.spliceOf edit).start
        (buffer.spliceOf edit).stop (buffer.spliceOf edit).replacement :=
  buffer.text_replaceRange?_eq_splice? edit.first edit.second edit.replacement

theorem livePosition?_edit?
    {edited : Buffer}
    {edit : Edit}
    (isEdited : buffer.edit? edit = some edited)
    (mark : Mark) :
    edited.livePosition? mark =
      (buffer.livePosition? mark).map
        (rebase (buffer.spliceOf edit).start (buffer.spliceOf edit).stop
          (buffer.spliceOf edit).replacement.byteSize edited.size) :=
  livePosition?_replaceRange? isEdited mark

theorem spliceOf_ordered
    (buffer : Buffer)
    (edit : Edit) :
    (buffer.spliceOf edit).start ≤ (buffer.spliceOf edit).stop :=
  buffer.clamp_ordered _ _

/-- An edit that ends at or before a mark changes the text before it. -/
theorem stands_of_stop_le
    (stands : buffer.StandsBetween mark halves)
    {edit : Edit}
    {edited : Buffer}
    (isEdited : buffer.edit? edit = some edited)
    (behind : (buffer.spliceOf edit).stop ≤ halves.before.byteSize)
    {before : Text}
    (isBefore :
      halves.before.splice? (buffer.spliceOf edit).start
          (buffer.spliceOf edit).stop (buffer.spliceOf edit).replacement =
        some before)
    (isText : edited.text = before ++ halves.after) :
    edited.StandsBetween mark { halves with before } where
  text_eq := isText
  live_eq := by
    have size :=
      (Text.byteSize_of_splice? (buffer.spliceOf_ordered edit) isBefore).2
    have fits : before.byteSize ≤ edited.size := by
      rw [← byteSize_text, isText, Text.byteSize_append]
      exact Nat.le_add_right ..
    rw [livePosition?_edit? isEdited, stands.live_eq, Option.map_some,
      rebase_of_le behind (by omega), size]

/-- An edit that starts at or after a mark changes the text after it. -/
theorem stands_of_lt_stop
    (stands : buffer.StandsBetween mark halves)
    {edit : Edit}
    {edited : Buffer}
    (isEdited : buffer.edit? edit = some edited)
    (ahead : halves.before.byteSize < (buffer.spliceOf edit).stop)
    {after : Text}
    (isText : edited.text = halves.before ++ after) :
    edited.StandsBetween mark { halves with after } where
  text_eq := isText
  live_eq := by
    rw [livePosition?_edit? isEdited, stands.live_eq, Option.map_some,
      rebase_of_lt ahead]

/--
One edit that spares a mark changes the half it lies in, and fails where that
does.
-/
theorem stands_edit?
    (stands : buffer.StandsBetween mark halves)
    {edit : Edit}
    (spares :
      ¬((buffer.spliceOf edit).start < halves.before.byteSize ∧
        halves.before.byteSize < (buffer.spliceOf edit).stop)) :
    Option.Rel (·.StandsBetween mark ·) (buffer.edit? edit)
      (halves.splice? (buffer.spliceOf edit)) := by
  have ordered := buffer.spliceOf_ordered edit
  have texts := buffer.text_edit? edit
  rw [stands.text_eq] at texts
  unfold Halves.splice?
  split
  · rename_i behind
    rw [Text.splice?_append_of_le ordered behind] at texts
    cases isBefore : halves.before.splice? (buffer.spliceOf edit).start
        (buffer.spliceOf edit).stop (buffer.spliceOf edit).replacement with
    | none =>
      rw [isBefore] at texts
      rw [Option.map_eq_none_iff.1 texts]
      exact .none
    | some before =>
      rw [isBefore] at texts
      rcases Option.map_eq_some_iff.1 texts with ⟨edited, isEdited, isText⟩
      rw [isEdited]
      exact .some (stands_of_stop_le stands isEdited behind isBefore isText)
  · rename_i ahead
    have begins : halves.before.byteSize ≤ (buffer.spliceOf edit).start := by
      omega
    rw [Text.splice?_append_of_ge ordered begins] at texts
    cases isAfter :
        halves.after.splice? _ _ (buffer.spliceOf edit).replacement with
    | none =>
      rw [isAfter] at texts
      rw [Option.map_eq_none_iff.1 texts]
      exact .none
    | some after =>
      rw [isAfter] at texts
      rcases Option.map_eq_some_iff.1 texts with ⟨edited, isEdited, isText⟩
      rw [isEdited]
      exact .some
        (stands_of_lt_stop stands isEdited (Nat.lt_of_not_le ahead) isText)

/-- Every range in a sequence of edits has its ends in ascending order. -/
theorem ordered_of_mem_splicesOf
    {buffer : Buffer}
    {edits : List Edit}
    {splice : Splice}
    (member : splice ∈ buffer.splicesOf edits) :
    splice.start ≤ splice.stop := by
  induction edits generalizing buffer with
  | nil => cases member
  | cons edit rest ih =>
    rw [splicesOf] at member
    rcases List.mem_cons.1 member with rfl | later
    · exact buffer.spliceOf_ordered edit
    · split at later
      · exact ih later
      · cases later

/--
A live mark keeps its place through any sequence of edits that spare it: each of
them changes the half of the text it lies in, and afterwards the mark stands
between the halves again.  A mark at or after the end of a range is as far from
the start of the text as the range is long, so that it can be moved back by that
much.
-/
theorem editAll?_keeps_place
    (stands : buffer.StandsBetween mark halves)
    (edits : List Edit)
    (spares : buffer.Spares mark edits) :
    Option.Rel (·.StandsBetween mark ·) (buffer.editAll? edits)
      (halves.spliceAll? (buffer.splicesOf edits)) ∧
    ∀ splice ∈ buffer.splicesOf edits,
      splice.start ≤ splice.stop ∧
      ∀ position,
        splice.stop ≤ position → splice.stop - splice.start ≤ position := by
  refine ⟨?_, fun splice member => ?_⟩
  · induction edits generalizing buffer halves with
    | nil => exact .some stands
    | cons edit rest ih =>
      rw [Spares, offset_of_livePosition? stands.live_eq] at spares
      have step := stands_edit? stands spares.1
      rw [editAll?, List.foldlM_cons, splicesOf, Halves.spliceAll?,
        List.foldlM_cons]
      cases isEdited : buffer.edit? edit with
      | none =>
        rw [isEdited] at step
        cases isSpliced : halves.splice? (buffer.spliceOf edit) with
        | none => exact .none
        | some spliced =>
          rw [isSpliced] at step
          cases step
      | some edited =>
        rw [isEdited] at step spares
        cases isSpliced : halves.splice? (buffer.spliceOf edit) with
        | none =>
          rw [isSpliced] at step
          cases step
        | some spliced =>
          rw [isSpliced] at step
          cases step with
          | some standing => exact ih standing spares.2
  · exact ⟨ordered_of_mem_splicesOf member, fun position behind => by omega⟩

/-- A mark at the fifth byte of a text, and another one at the second. -/
def twoMarks : Buffer :=
  (((ofText "one two".toList).mark (.offset 4)).2.mark (.offset 1)).2

/--
Edits at and around the first of two marks, from behind, beyond the end, and
with a mark that moves as the end of a range.
-/
def editsAround : List Edit :=
  [⟨.offset 4, .offset 4, "é".toList⟩, ⟨.offset 99, .mark ⟨0⟩, "2".toList⟩,
    ⟨.offset 3, .mark ⟨1⟩, []⟩, ⟨.mark ⟨1⟩, .mark ⟨1⟩, "n".toList⟩,
    ⟨.mark ⟨0⟩, .mark ⟨1⟩, "?".toList⟩, ⟨.offset 99, .offset 88, "!".toList⟩]

theorem editAll?_keeps_place_around :
    twoMarks.StandsBetween ⟨0⟩ ⟨"one ".toList, "two".toList⟩ ∧
    twoMarks.Spares ⟨0⟩ editsAround ∧
    ∃ edited,
      twoMarks.editAll? editsAround = some edited ∧
      edited.StandsBetween ⟨0⟩ ⟨"on?".toList, "2!".toList⟩ := by
  have stands : twoMarks.StandsBetween ⟨0⟩ ⟨"one ".toList, "two".toList⟩ :=
    ⟨by decide +kernel, by decide +kernel⟩
  have spares : twoMarks.Spares ⟨0⟩ editsAround := by decide +kernel
  have keeps := (editAll?_keeps_place stands editsAround spares).1
  have spliced : Halves.spliceAll? ⟨"one ".toList, "two".toList⟩
      (twoMarks.splicesOf editsAround) = some ⟨"on?".toList, "2!".toList⟩ := by
    decide +kernel
  rw [spliced] at keeps
  cases isEdited : twoMarks.editAll? editsAround with
  | none =>
    rw [isEdited] at keeps
    cases keeps
  | some edited =>
    rw [isEdited] at keeps
    cases keeps with
    | some standing => exact ⟨stands, spares, edited, rfl, standing⟩

end Buffer

end Mustache
