import Mustache.Proofs.Reader.Reading
import Mustache.Proofs.Text.Line
import Mustache.Reader.Node

/-!
# Edits around a token

Removing the line around a token cuts two stretches out of the text, the
indentation before the token and the rest of the line after it.  Every live mark
moves back over the stretches that end at or before it (`Trimmed`).  Replacing
what is between two marks puts the end mark, and a cursor that stood there,
behind the replacement.
-/

namespace Mustache

/-- Where a position lands when the bytes from `start` to `stop` are cut out. -/
def cutAt (start stop position : Nat) : Nat :=
  if stop ≤ position then position - (stop - start) else position

theorem cutAt_of_le
    {start stop position : Nat}
    (after : stop ≤ position) :
    cutAt start stop position = position - (stop - start) :=
  if_pos after

theorem cutAt_of_lt
    {start stop position : Nat}
    (before : position < stop) :
    cutAt start stop position = position :=
  if_neg (by omega)

theorem rebase_eq_cutAt
    {start stop size position : Nat}
    (fits :
      stop ≤ position →
      position - (stop - start) ≤ size ∨
        position - (stop - start) < Nat.pow 2 64) :
    rebase start stop 0 size position = cutAt start stop position := by
  by_cases after : stop ≤ position
  · rw [cutAt_of_le after, rebase, if_pos after, Nat.add_zero]
    exact (fits after).elim wrapBeyond_of_le wrapBeyond_of_lt
  · have before := Nat.lt_of_not_le after
    rw [cutAt_of_lt before, Buffer.rebase_of_lt before]

namespace Buffer

/--
A mark can be at a position in the text, or beyond it as far as 64 bits reach.
-/
def Admits (buffer : Buffer) (position : Nat) : Prop :=
  position ≤ buffer.size ∨ position < Nat.pow 2 64

/-- What cutting a stretch out of the text does to a buffer. -/
structure Cut (buffer cut : Buffer) (before within after : Text) : Prop where
  size_eq : buffer.size = before.byteSize + within.byteSize + after.byteSize
  text_eq : cut.text = before ++ after
  linked : cut.Linked
  slots_eq : cut.slots = buffer.slots
  live_of_some :
    ∀ mark position,
      buffer.Admits position → buffer.livePosition? mark = some position →
      cut.livePosition? mark =
        some (cutAt before.byteSize (before ++ within).byteSize position)
  isSome_eq :
    ∀ mark, (cut.livePosition? mark).isSome = (buffer.livePosition? mark).isSome
  liveCount_eq : cut.liveCount = buffer.liveCount

theorem cut_of_text
    {buffer : Buffer}
    (linked : buffer.Linked)
    (first second : Position)
    {before within after : Text}
    (text : buffer.text = before ++ (within ++ after))
    (atFirst : buffer.offset first = before.byteSize)
    (atSecond : buffer.offset second = (before ++ within).byteSize) :
    ∃ cut,
      buffer.replaceRange? first second [] = some cut ∧
      Cut buffer cut before within after := by
  rcases replaceRange?_of_text linked text atFirst atSecond [] with
    ⟨cut, replaced, edited⟩
  have size :
      buffer.size = before.byteSize + within.byteSize + after.byteSize := by
    rw [← byteSize_text, text]
    simp only [Text.byteSize_append, Nat.add_assoc]
  have sizeAfter : cut.size = before.byteSize + after.byteSize := by
    rw [← byteSize_text, edited.text_eq]
    simp only [Text.byteSize_append, Text.byteSize_nil, Nat.zero_add]
  refine ⟨cut, replaced, size, edited.text_eq, edited.linked, edited.slots_eq,
    ?_, ?_, edited.liveCount_eq⟩
  · intro mark position admits live
    have fits :
        (before ++ within).byteSize ≤ position →
        position - ((before ++ within).byteSize - before.byteSize) ≤ cut.size ∨
          position - ((before ++ within).byteSize - before.byteSize) <
            Nat.pow 2 64 := by
      intro behind
      rw [Admits, size] at admits
      rw [sizeAfter]
      simp only [Text.byteSize_append] at behind ⊢
      omega
    rw [edited.live_eq, live, Option.map_some, Text.byteSize_nil,
      rebase_eq_cutAt fits]
  · intro mark
    rw [edited.live_eq, Option.isSome_map]

/-- A mark outside of what was cut out is at a position that marks can be at. -/
theorem Cut.admits
    {buffer cut : Buffer}
    {before within after : Text}
    {position : Nat}
    (isCut : Cut buffer cut before within after)
    (admits : buffer.Admits position)
    (outside :
      position ≤ before.byteSize ∨ (before ++ within).byteSize ≤ position) :
    cut.Admits
      (cutAt before.byteSize (before ++ within).byteSize position) := by
  have size : cut.size = before.byteSize + after.byteSize := by
    rw [← byteSize_text, isCut.text_eq, Text.byteSize_append]
  rw [Admits, isCut.size_eq] at admits
  rw [Admits, size]
  simp only [cutAt, Text.byteSize_append] at outside ⊢
  split <;> omega

/-- A live mark is not the one that is made next. -/
theorem ne_new_of_live
    {buffer : Buffer}
    {mark : Mark}
    {position : Nat}
    (live : buffer.livePosition? mark = some position) :
    mark ≠ ⟨buffer.slots.size⟩ := by
  rintro rfl
  exact Nat.lt_irrefl _ (slot_lt_of_livePosition? live)

end Buffer

namespace Reader

variable
    {reader trimmed : Reader}
    {kept indentation source line rest before after : Text}
    {token : Token}

/-- A token stands in a buffer between two texts. -/
structure Stands
    (reader : Reader)
    (token : Token)
    (before source after : Text) : Prop where
  text_eq : reader.buffer.text = before ++ (source ++ after)
  linked : reader.buffer.Linked
  start_eq : reader.buffer.livePosition? token.start = some before.byteSize
  stop_eq :
    reader.buffer.livePosition? token.stop = some (before ++ source).byteSize

theorem Stands.lineAround?_eq
    (stands : reader.Stands token before source after) :
    reader.lineAround? token = Text.lineBetween? before after := by
  have start := Buffer.walkTo?_of_text stands.text_eq
    (Buffer.offset_of_livePosition? stands.start_eq)
  have text : reader.buffer.text = (before ++ source) ++ after := by
    rw [stands.text_eq, List.append_assoc]
  have stop :=
    Buffer.walkTo?_of_text text (Buffer.offset_of_livePosition? stands.stop_eq)
  simp only [lineAround?, start, stop]
  rfl

theorem Stands.size_eq
    (stands : reader.Stands token (kept ++ indentation) source (line ++ rest)) :
    reader.buffer.size =
      kept.byteSize + indentation.byteSize + source.byteSize + line.byteSize +
        rest.byteSize := by
  rw [← Buffer.byteSize_text, stands.text_eq]
  simp only [Text.byteSize_append, Nat.add_assoc]

/-- What cutting out the line around a token does to a reader. -/
structure Trimmed
    (reader trimmed : Reader)
    (kept indentation source line rest : Text) : Prop where
  size_eq :
    reader.buffer.size =
      kept.byteSize + indentation.byteSize + source.byteSize + line.byteSize +
        rest.byteSize
  text_eq : trimmed.buffer.text = kept ++ (source ++ rest)
  linked : trimmed.buffer.Linked
  cursor_eq : trimmed.cursor = reader.cursor
  line_eq :
    trimmed.line =
      reader.line +
        if reader.position ≤ (kept ++ indentation ++ source).byteSize then
          line.countLineBreaks
        else
          0
  live_of_some : ∀ mark position, reader.buffer.Admits position →
    (position ≤ kept.byteSize ∨ (kept ++ indentation).byteSize ≤ position) →
    reader.buffer.livePosition? mark = some position →
    trimmed.buffer.livePosition? mark =
      some (cutAt (kept ++ source).byteSize (kept ++ (source ++ line)).byteSize
        (cutAt kept.byteSize (kept ++ indentation).byteSize position))
  isSome_eq : ∀ mark, (trimmed.buffer.livePosition? mark).isSome =
    (reader.buffer.livePosition? mark).isSome
  liveCount_eq : trimmed.buffer.liveCount = reader.buffer.liveCount

theorem Trimmed.live_of_none
    (cut : Trimmed reader trimmed kept indentation source line rest)
    (mark : Mark)
    (dead : reader.buffer.livePosition? mark = none) :
    trimmed.buffer.livePosition? mark = none := by
  rw [← Option.isNone_iff_eq_none, ← Option.isSome_eq_false_iff, cut.isSome_eq,
    dead]
  rfl

/-- A live mark before the indentation stays where it is. -/
theorem Trimmed.live_before
    (cut : Trimmed reader trimmed kept indentation source line rest)
    {mark : Mark}
    {position : Nat}
    (live : reader.buffer.livePosition? mark = some position)
    (early : position ≤ kept.byteSize) :
    trimmed.buffer.livePosition? mark = some position := by
  have size := cut.size_eq
  rw [cut.live_of_some mark position (.inl (by omega)) (.inl early) live]
  simp only [cutAt, Text.byteSize_append, Option.some.injEq]
  split <;> split <;> omega

/-- A live mark at the token moves back over the indentation. -/
theorem Trimmed.live_inside
    (cut : Trimmed reader trimmed kept indentation source line rest)
    {mark : Mark}
    {within : Text}
    (live :
      reader.buffer.livePosition? mark =
        some (kept ++ indentation ++ within).byteSize)
    (fits : within.byteSize ≤ source.byteSize) :
    trimmed.buffer.livePosition? mark = some (kept ++ within).byteSize := by
  have size := cut.size_eq
  simp only [Text.byteSize_append] at live ⊢
  rw [cut.live_of_some mark _ (.inl (by omega))
      (by simp only [Text.byteSize_append]; omega) live]
  simp only [cutAt, Text.byteSize_append, Option.some.injEq]
  split <;> split <;> omega

theorem Trimmed.live_start
    (cut : Trimmed reader trimmed kept indentation source line rest)
    {mark : Mark}
    (live :
      reader.buffer.livePosition? mark = some (kept ++ indentation).byteSize) :
    trimmed.buffer.livePosition? mark = some kept.byteSize := by
  have inside : reader.buffer.livePosition? mark =
      some (kept ++ indentation ++ ([] : Text)).byteSize := by
    rw [List.append_nil]
    exact live
  have moved := cut.live_inside inside (Nat.zero_le _)
  rwa [List.append_nil] at moved

/-- A live mark behind the line moves back over both stretches. -/
theorem Trimmed.live_behind
    (cut : Trimmed reader trimmed kept indentation source line rest)
    {mark : Mark}
    {further : Text}
    (live :
      reader.buffer.livePosition? mark =
        some (kept ++ indentation ++ source ++ line ++ further).byteSize)
    (fits : further.byteSize ≤ rest.byteSize) :
    trimmed.buffer.livePosition? mark =
      some (kept ++ source ++ further).byteSize := by
  have size := cut.size_eq
  simp only [Text.byteSize_append] at live ⊢
  rw [cut.live_of_some mark _ (.inl (by omega))
      (by simp only [Text.byteSize_append]; omega) live]
  simp only [cutAt, Text.byteSize_append, Option.some.injEq]
  split <;> split <;> omega

theorem trimLine?_of_neighbours
    (stands : reader.Stands token before source after)
    (neighbours : Text.lineBetween? before after = none) :
    reader.trimLine? token = some (none, reader) := by
  rw [trimLine?, stands.lineAround?_eq, neighbours]

/-- The two cuts, with a mark at the end of the line between them. -/
theorem trimLine?_eq
    {line : Text}
    (found : reader.lineAround? token = some (indentation, line)) :
    reader.trimLine? token =
      (((reader.buffer.mark
        (.offset
          (reader.buffer.offset (.mark token.stop) +
            line.byteSize))).2.replaceRange?
        (.offset
          (reader.buffer.offset (.mark token.start) - indentation.byteSize))
        (.offset (reader.buffer.offset (.mark token.start))) []).bind
        fun first =>
          (first.replaceRange? (.mark token.stop)
            (.mark ⟨reader.buffer.slots.size⟩) []).bind fun second =>
            some
              (some indentation,
                ⟨second.release ⟨reader.buffer.slots.size⟩, reader.cursor,
                  reader.line +
                    if reader.position ≤
                        reader.buffer.offset (.mark token.stop) then
                      line.countLineBreaks
                    else
                      0⟩)) := by
  rw [trimLine?, found]
  rfl

/--
The end of the line is marked, and then the indentation and the line are cut
out.
-/
theorem cuts_of_alone
    (stands : reader.Stands token (kept ++ indentation) source (line ++ rest)) :
    ∃ first second,
      (reader.buffer.mark
          (.offset
            ((kept ++ indentation ++ source).byteSize +
              line.byteSize))).2.replaceRange?
          (.offset ((kept ++ indentation).byteSize - indentation.byteSize))
          (.offset (kept ++ indentation).byteSize) [] =
        some first ∧
      first.replaceRange? (.mark token.stop) (.mark ⟨reader.buffer.slots.size⟩)
          [] =
        some second ∧
      Buffer.Cut
        (reader.buffer.mark
          (.offset
            ((kept ++ indentation ++ source).byteSize + line.byteSize))).2
        first kept indentation (source ++ (line ++ rest)) ∧
      Buffer.Cut first second (kept ++ source) line rest := by
  have size := stands.size_eq
  let lineEnd : Position :=
    .offset ((kept ++ indentation ++ source).byteSize + line.byteSize)
  have linked := Buffer.linked_mark stands.linked lineEnd
  have marked := Buffer.livePosition?_mark stands.linked lineEnd
  have atEnd := marked ⟨reader.buffer.slots.size⟩
  rw [if_pos rfl] at atEnd
  have atStop := marked token.stop
  rw [if_neg (Buffer.ne_new_of_live stands.stop_eq), stands.stop_eq] at atStop
  have textMarked : (reader.buffer.mark lineEnd).2.text =
      kept ++ (indentation ++ (source ++ (line ++ rest))) := by
    rw [Buffer.text_mark, stands.text_eq, List.append_assoc]
  rcases Buffer.cut_of_text linked
      (.offset ((kept ++ indentation).byteSize - indentation.byteSize))
      (.offset (kept ++ indentation).byteSize) textMarked
      (by simp [Buffer.offset]) rfl with ⟨first, firstCut, cutFirst⟩
  have stopBetween := cutFirst.live_of_some token.stop _ (.inl (by
    show _ ≤ reader.buffer.size
    simp only [size, Text.byteSize_append]
    omega)) atStop
  have endBetween :=
    cutFirst.live_of_some ⟨reader.buffer.slots.size⟩ _ (.inl (by
      show
        (kept ++ indentation ++ source).byteSize + line.byteSize ≤
          reader.buffer.size
      simp only [size, Text.byteSize_append]
      omega)) atEnd
  have textBetween : first.text = (kept ++ source) ++ (line ++ rest) := by
    rw [cutFirst.text_eq]
    simp
  rcases Buffer.cut_of_text cutFirst.linked (.mark token.stop)
      (.mark ⟨reader.buffer.slots.size⟩) textBetween
      (by
        rw [Buffer.offset_of_livePosition? stopBetween]
        simp only [cutAt, Text.byteSize_append]
        split <;> omega)
      (by
        rw [Buffer.offset_of_livePosition? endBetween]
        show
          cutAt _ _ ((kept ++ indentation ++ source).byteSize + line.byteSize) =
            _
        simp only [cutAt, Text.byteSize_append]
        split <;> omega) with ⟨second, secondCut, cutSecond⟩
  exact ⟨first, second, firstCut, secondCut, cutFirst, cutSecond⟩

/-- Removing the line around a token that is alone there. -/
theorem trimLine?_of_alone
    (stands : reader.Stands token (kept ++ indentation) source (line ++ rest))
    (alone :
      Text.lineBetween? (kept ++ indentation) (line ++ rest) =
        some (indentation, line)) :
    ∃ trimmed,
      reader.trimLine? token = some (some indentation, trimmed) ∧
      Trimmed reader trimmed kept indentation source line rest := by
  have size := stands.size_eq
  have marked := Buffer.livePosition?_mark stands.linked
    (.offset ((kept ++ indentation ++ source).byteSize + line.byteSize))
  rcases cuts_of_alone stands with
    ⟨first, second, firstCut, secondCut, cutFirst, cutSecond⟩
  have released :=
    Buffer.livePosition?_release cutSecond.linked ⟨reader.buffer.slots.size⟩
  refine ⟨⟨second.release ⟨reader.buffer.slots.size⟩, reader.cursor,
    reader.line + if reader.position ≤ (kept ++ indentation ++ source).byteSize
      then line.countLineBreaks else 0⟩, ?_, ?_⟩
  · rw [trimLine?_eq (by rw [stands.lineAround?_eq, alone]),
      Buffer.offset_of_livePosition? stands.start_eq,
      Buffer.offset_of_livePosition? stands.stop_eq, firstCut, Option.bind_some,
      secondCut, Option.bind_some]
  · have newIsLive :
        (second.livePosition? ⟨reader.buffer.slots.size⟩).isSome := by
      rw [cutSecond.isSome_eq, cutFirst.isSome_eq, marked, if_pos rfl]
      rfl
    rcases Option.isSome_iff_exists.1 newIsLive with ⟨lineEnd, newLive⟩
    refine ⟨size, ?_, Buffer.linked_release cutSecond.linked _, rfl, rfl, ?_,
      ?_, ?_⟩
    · rw [Buffer.text_release, cutSecond.text_eq, List.append_assoc]
    · intro mark position admits outside live
      have notNew := Buffer.ne_new_of_live live
      have liveMarked := marked mark
      rw [if_neg notNew, live] at liveMarked
      have between := cutFirst.live_of_some mark position admits liveMarked
      have final :=
        cutSecond.live_of_some mark _ (cutFirst.admits admits outside) between
      rw [released, if_neg notNew, final, List.append_assoc]
    · intro mark
      rw [released]
      by_cases new : mark = ⟨reader.buffer.slots.size⟩
      · cases live : reader.buffer.livePosition? mark with
        | none => rw [if_pos new]
        | some position => exact absurd new (Buffer.ne_new_of_live live)
      · rw [if_neg new, cutSecond.isSome_eq, cutFirst.isSome_eq, marked,
          if_neg new]
    · have counted := cutSecond.linked.liveCount_release newLive
      rw [cutSecond.liveCount_eq, cutFirst.liveCount_eq, Buffer.liveCount_mark]
        at counted
      exact Nat.succ.inj counted

/--
Replacing what is between two marks, the second of them where the cursor is.
-/
theorem replace?_of_text
    {within : Text}
    {start stop : Mark}
    (text : reader.buffer.text = before ++ (within ++ after))
    (linked : reader.buffer.Linked)
    (atStart : reader.buffer.livePosition? start = some before.byteSize)
    (atStop :
      reader.buffer.livePosition? stop = some (before ++ within).byteSize)
    (atCursor :
      reader.buffer.livePosition? reader.cursor =
        some (before ++ within).byteSize)
    (replacement : Text) :
    ∃ replaced,
      reader.replace? start stop replacement = some replaced ∧
      replaced.At (before ++ replacement) after ∧
      replaced.line = reader.line ∧
      replaced.cursor = reader.cursor ∧
      ∀ mark,
        reader.buffer.livePosition? mark = none →
        replaced.buffer.livePosition? mark = none := by
  rcases Buffer.replaceRange?_of_text linked text
      (Buffer.offset_of_livePosition? atStart)
      (Buffer.offset_of_livePosition? atStop) replacement with
    ⟨edited, replaced, isEdited⟩
  have size :
      edited.size =
        before.byteSize + (replacement.byteSize + after.byteSize) := by
    rw [← Buffer.byteSize_text, isEdited.text_eq]
    simp only [Text.byteSize_append]
  refine ⟨⟨edited, reader.cursor, reader.line⟩, ?_, ⟨?_, isEdited.linked, ?_⟩,
    rfl, rfl, ?_⟩
  · rw [replace?]
    simp only [replaced]
    rfl
  · rw [isEdited.text_eq, List.append_assoc]
  · rw [isEdited.live_eq, atCursor, Option.map_some,
      Buffer.rebase_of_le (Nat.le_refl _)]
    · simp only [Text.byteSize_append]
      congr 1
      omega
    · simp only [Text.byteSize_append, size]
      omega
  · intro mark dead
    rw [isEdited.live_eq, dead]
    rfl

end Reader

end Mustache
