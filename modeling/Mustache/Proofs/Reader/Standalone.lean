import Mustache.Proofs.Reader.Trimming
import Mustache.Proofs.Text.Breaks

/-!
# The line of a tag, all or nothing

Trimming the line of a tag either finds a character there that is no blank and
leaves the reader as it is, or takes the line away around the tag
(`Reader.trimLine?_removes_line`).  What is then left of the reader is said
whatever marks the buffer holds (`Reader.LineRemoved`): a mark outside of what
was taken away stays beside the text that it was beside, and there are no more
live marks than before.  A line break that was not read yet is counted, and one
that was read is not counted again.
-/

namespace Mustache

namespace Text

/-- The line around a place, and the texts beyond it on either side. -/
structure LineParts
    (before after kept indentation blanks lineBreak rest : Text) : Prop where
  before_eq : before = kept ++ indentation
  after_eq : after = blanks ++ lineBreak ++ rest
  /-- The line starts behind a line break or at the edge of the text. -/
  starts : ∀ last ∈ kept.getLast?, isLineBreak last = true
  indented : ∀ character ∈ indentation, isInlineBlank character = true
  blank : ∀ character ∈ blanks, isInlineBlank character = true
  /-- The line ends with one line break or at the edge of the text. -/
  ends : lineBreak = [] ∧ rest = [] ∨ IsBreakBefore lineBreak rest

/-- A line of blanks falls into its parts. -/
theorem lineParts_of_lineBetween?
    {before after indentation line : Text}
    (found : lineBetween? before after = some (indentation, line)) :
    ∃ kept blanks lineBreak rest,
      line = blanks ++ lineBreak ∧
      LineParts before after kept indentation blanks lineBreak rest := by
  rcases lineBetween?_eq_some found with ⟨isIndentation, isLine⟩
  rcases indentationAtEnd?_eq_some_iff.1 isIndentation with
    ⟨indented, kept, before_eq, starts⟩
  rcases lineAtStart?_eq_some_iff.1 isLine with
    ⟨blanks, lineBreak, rest, rfl, after_eq, blank, ends⟩
  exact ⟨kept, blanks, lineBreak, rest, rfl, before_eq, after_eq, starts,
    indented, blank, ends⟩

theorem lineBreaksAfter_of_noBreak
    {text : Text}
    (noBreak : ∀ character ∈ text, isLineBreak character = false)
    (previous : Option Char) :
    text.lineBreaksAfter previous = 0 := by
  induction text generalizing previous with
  | nil => rfl
  | cons character rest ih =>
    have stays : opensLine previous character = false := by
      have noBreak := noBreak character List.mem_cons_self
      simp only [isLineBreak, Bool.or_eq_false_iff] at noBreak
      simp [opensLine, noBreak]
    rw [lineBreaksAfter_cons, stays, ih fun other member =>
      noBreak other (List.mem_cons_of_mem _ member)]
    rfl

/-- A line holds no more than the one line break it ends with. -/
theorem LineParts.countLineBreaks_eq
    {before after kept indentation blanks lineBreak rest : Text}
    (parts : LineParts before after kept indentation blanks lineBreak rest) :
    (blanks ++ lineBreak).countLineBreaks =
      if lineBreak = [] then 0 else 1 := by
  have noBreak := noBreak_of_inline parts.blank
  have noReturn : blanks.getLast? ≠ some '\r' := fun isLast => by
    cases noBreak '\r' (List.mem_of_getLast? isLast)
  rw [Text.countLineBreaks_eq, lineBreaksAfter_append,
    lineBreaksAfter_of_noBreak noBreak, Nat.zero_add, Option.or_none]
  rcases parts.ends with ⟨rfl, -⟩ | rfl | ⟨character, rfl, breaks, -⟩
  · rfl
  · simp [opensLine]
  · rcases Bool.or_eq_true_iff.1 breaks with isFeed | isReturn
    · simp [opensLine, beq_iff_eq.1 isFeed, noReturn]
    · simp [opensLine, beq_iff_eq.1 isReturn]

theorem map_snd_walk
    (start text : Text)
    (offset : Nat) :
    (walk start text offset).map Prod.snd =
      (walk [] text offset).map Prod.snd := by
  ext after
  simp only
    [Option.map_eq_some_iff, Prod.exists, exists_eq_right, walk_eq_some_iff]
  constructor
  · rintro ⟨_, taken, rfl, parts, size⟩
    exact ⟨_, taken, rfl, parts, size⟩
  · rintro ⟨_, taken, rfl, parts, size⟩
    exact ⟨_, taken, rfl, parts, size⟩

end Text

namespace Reader

/--
The text that a reader has not read, if its cursor falls between two characters.
-/
def unread? (reader : Reader) : Option Text :=
  (reader.buffer.walkTo? (.mark reader.cursor)).map Prod.snd

/-- Behind a part of the text, what is unread does not depend on that part. -/
theorem unread?_of_behind
    {reader : Reader}
    {passed rest : Text}
    {further : Nat}
    (text : reader.buffer.text = passed ++ rest)
    (position : reader.position = passed.byteSize + further) :
    reader.unread? = (Text.walk [] rest further).map Prod.snd := by
  rw [unread?, Buffer.walkTo?_eq_walk, text]
  show (Text.walk [] (passed ++ rest) reader.position).map Prod.snd = _
  rw [position, Text.walk_append [] rest (Nat.le_add_right _ _),
    Nat.add_sub_cancel_left, Text.map_snd_walk]

/-- A reader from which the line around a token was removed. -/
structure LineRemoved
    (reader trimmed : Reader)
    (token : Token)
    (kept indentation source blanks lineBreak rest : Text) : Prop where
  /-- The token stands between what was before its line and what is after it. -/
  stands : trimmed.Stands token kept source rest
  cursor_eq : trimmed.cursor = reader.cursor
  unread_near :
    reader.position = (kept ++ indentation ++ source).byteSize →
    reader.unread? = some (blanks ++ lineBreak ++ rest) ∧
      trimmed.unread? = some rest
  unread_far :
    (kept ++ indentation ++ source ++ (blanks ++ lineBreak)).byteSize ≤
      reader.position →
    trimmed.unread? = reader.unread?
  line_eq :
    trimmed.line =
      reader.line +
        if reader.position ≤ (kept ++ indentation ++ source).byteSize ∧
          lineBreak ≠ [] then
          1
        else
          0
  mark_before :
    ∀ mark position,
      reader.buffer.livePosition? mark = some position →
      position ≤ kept.byteSize →
      trimmed.buffer.livePosition? mark = some position
  mark_beside :
    ∀ mark within,
      reader.buffer.livePosition? mark =
        some ((kept ++ indentation).byteSize + within) →
      within ≤ source.byteSize →
      trimmed.buffer.livePosition? mark = some (kept.byteSize + within)
  mark_behind :
    ∀ mark further,
      reader.buffer.livePosition? mark =
        some
          ((kept ++ indentation ++ source ++ (blanks ++ lineBreak)).byteSize +
            further) →
      reader.buffer.Admits
        ((kept ++ indentation ++ source ++ (blanks ++ lineBreak)).byteSize +
          further) →
      trimmed.buffer.livePosition? mark =
        some ((kept ++ source).byteSize + further)
  isSome_eq : ∀ mark, (trimmed.buffer.livePosition? mark).isSome =
    (reader.buffer.livePosition? mark).isSome
  liveCount_eq : trimmed.buffer.liveCount = reader.buffer.liveCount

variable
    {reader trimmed : Reader}
    {token : Token}
    {before after kept indentation source line rest blanks lineBreak : Text}

theorem Trimmed.mark_before
    (cut : Trimmed reader trimmed kept indentation source line rest)
    (mark : Mark)
    (position : Nat)
    (live : reader.buffer.livePosition? mark = some position)
    (early : position ≤ kept.byteSize) :
    trimmed.buffer.livePosition? mark = some position :=
  cut.live_before live early

theorem Trimmed.mark_beside
    (cut : Trimmed reader trimmed kept indentation source line rest)
    (mark : Mark)
    (within : Nat)
    (live :
      reader.buffer.livePosition? mark =
        some ((kept ++ indentation).byteSize + within))
    (fits : within ≤ source.byteSize) :
    trimmed.buffer.livePosition? mark = some (kept.byteSize + within) := by
  have size := cut.size_eq
  simp only [Text.byteSize_append] at live
  rw [cut.live_of_some mark _ (.inl (by omega))
      (by simp only [Text.byteSize_append]; omega) live]
  simp only [cutAt, Text.byteSize_append, Option.some.injEq]
  split <;> split <;> omega

theorem Trimmed.mark_behind
    (cut : Trimmed reader trimmed kept indentation source line rest)
    (mark : Mark)
    (further : Nat)
    (live :
      reader.buffer.livePosition? mark =
        some ((kept ++ indentation ++ source ++ line).byteSize + further))
    (admits :
      reader.buffer.Admits
        ((kept ++ indentation ++ source ++ line).byteSize + further)) :
    trimmed.buffer.livePosition? mark =
      some ((kept ++ source).byteSize + further) := by
  rw [cut.live_of_some mark _ admits
      (by simp only [Text.byteSize_append]; omega) live]
  simp only [cutAt, Text.byteSize_append, Option.some.injEq]
  split <;> split <;> omega

/-- What was cut out around a token is its line. -/
theorem Trimmed.lineRemoved
    (parts : Text.LineParts before after kept indentation blanks lineBreak rest)
    (stands : reader.Stands token before source after)
    {position : Nat}
    (live : reader.buffer.livePosition? reader.cursor = some position)
    (admits : reader.buffer.Admits position)
    (cut :
      Trimmed reader trimmed kept indentation source (blanks ++ lineBreak)
        rest) :
    reader.LineRemoved trimmed token kept indentation source blanks lineBreak
      rest := by
  obtain rfl := parts.before_eq
  obtain rfl := parts.after_eq
  have isPosition : reader.position = position :=
    Buffer.offset_of_livePosition? live
  have start : trimmed.buffer.livePosition? token.start = some kept.byteSize :=
    cut.live_start stands.start_eq
  have stop :
      trimmed.buffer.livePosition? token.stop =
        some (kept ++ source).byteSize :=
    cut.live_inside stands.stop_eq (Nat.le_refl _)
  refine
    { stands := ⟨cut.text_eq, cut.linked, start, stop⟩
      cursor_eq := cut.cursor_eq
      unread_near := fun near => ?_
      unread_far := fun far => ?_
      line_eq := ?_
      mark_before := cut.mark_before
      mark_beside := cut.mark_beside
      mark_behind := cut.mark_behind
      isSome_eq := cut.isSome_eq
      liveCount_eq := cut.liveCount_eq }
  · have text : reader.buffer.text =
        (kept ++ indentation ++ source) ++ (blanks ++ lineBreak ++ rest) := by
      rw [stands.text_eq]
      simp only [List.append_assoc]
    have moved : trimmed.position = (kept ++ source).byteSize + 0 := by
      rw [← isPosition, near] at live
      rw [Reader.position, cut.cursor_eq]
      exact Buffer.offset_of_livePosition?
        (cut.live_inside live (Nat.le_refl _))
    have textAfter : trimmed.buffer.text = (kept ++ source) ++ rest := by
      rw [cut.text_eq, List.append_assoc]
    rw [unread?_of_behind text (near.trans (Nat.add_zero _).symm),
      unread?_of_behind textAfter moved]
    simp [Text.walk]
  · obtain ⟨further, isFar⟩ := Nat.exists_eq_add_of_le far
    have text : reader.buffer.text =
        (kept ++ indentation ++ source ++ (blanks ++ lineBreak)) ++ rest := by
      rw [stands.text_eq]
      simp only [List.append_assoc]
    have moved : trimmed.position = (kept ++ source).byteSize + further := by
      rw [← isPosition, isFar] at live admits
      rw [Reader.position, cut.cursor_eq]
      exact Buffer.offset_of_livePosition?
        (cut.mark_behind _ further live admits)
    have textAfter : trimmed.buffer.text = (kept ++ source) ++ rest := by
      rw [cut.text_eq, List.append_assoc]
    rw [unread?_of_behind text isFar, unread?_of_behind textAfter moved]
  · rw [cut.line_eq, parts.countLineBreaks_eq]
    grind

/--
Trimming a token's line changes nothing just if a character that is no blank
stands on the line, and removes the line around the token otherwise.
-/
theorem trimLine?_removes_line
    (stands : reader.Stands token before source after)
    {position : Nat}
    (live : reader.buffer.livePosition? reader.cursor = some position)
    (admits : reader.buffer.Admits position) :
    ((Text.InkBefore before ∨ Text.InkAfter after) ∧
      reader.trimLine? token = some (none, reader)) ∨
    (¬(Text.InkBefore before ∨ Text.InkAfter after) ∧
      ∃ kept indentation blanks lineBreak rest trimmed,
        Text.LineParts before after kept indentation blanks lineBreak rest ∧
        reader.trimLine? token = some (some indentation, trimmed) ∧
        reader.LineRemoved trimmed token kept indentation source blanks
          lineBreak rest) := by
  cases found : Text.lineBetween? before after with
  | none =>
    exact .inl ⟨Text.lineBetween?_eq_none_iff.1 found,
      trimLine?_of_neighbours stands found⟩
  | some around =>
    obtain ⟨indentation, line⟩ := around
    obtain ⟨kept, blanks, lineBreak, rest, rfl, parts⟩ :=
      Text.lineParts_of_lineBetween? found
    refine .inr
      ⟨fun inked => ?_, kept, indentation, blanks, lineBreak, rest, ?_⟩
    · rw [Text.lineBetween?_eq_none_iff.2 inked] at found
      cases found
    · have standsParts := stands
      rw [parts.before_eq, parts.after_eq] at standsParts found
      obtain ⟨trimmed, trims, cut⟩ := trimLine?_of_alone standsParts found
      exact ⟨trimmed, parts, trims, cut.lineRemoved parts stands live admits⟩

/-- A reader behind a comment that is alone on an indented line. -/
def behindComment : Reader :=
  let buffer := ((Buffer.ofText "a\n  {{!c}} \r\nb".toList).mark (.offset 4)).2
  let buffer := (buffer.mark (.offset 10)).2
  ⟨(buffer.mark (.offset 10)).2, ⟨2⟩, 2⟩

/-- The comment that the reader stands behind. -/
def aloneComment : Token :=
  ⟨.comment, "c".toList, "{{!c}}".toList, ⟨0⟩, ⟨1⟩, 2, none⟩

theorem trimLine?_removes_line_comment :
    behindComment.Stands aloneComment "a\n  ".toList "{{!c}}".toList
      " \r\nb".toList ∧
    behindComment.buffer.livePosition? behindComment.cursor = some 10 ∧
    behindComment.buffer.Admits 10 ∧
    ∃ trimmed,
      behindComment.trimLine? aloneComment = some (some "  ".toList, trimmed) ∧
      trimmed.Stands aloneComment "a\n".toList "{{!c}}".toList "b".toList ∧
      trimmed.unread? = some "b".toList ∧
      trimmed.line = 3 ∧
      trimmed.buffer.liveCount = 3 := by
  have linked : behindComment.buffer.Linked :=
    Buffer.linked_mark
      (Buffer.linked_mark (Buffer.linked_mark (Buffer.linked_ofText _) _) _) _
  have stands : behindComment.Stands aloneComment "a\n  ".toList "{{!c}}".toList
      " \r\nb".toList :=
    ⟨by decide +kernel, linked, by decide +kernel, by decide +kernel⟩
  have live :
      behindComment.buffer.livePosition? behindComment.cursor = some 10 := by
    decide +kernel
  have admits : behindComment.buffer.Admits 10 := .inr (by decide)
  refine ⟨stands, live, admits, ?_⟩
  rcases trimLine?_removes_line stands live admits with
    ⟨-, unchanged⟩ |
    ⟨-, kept, indentation, blanks, lineBreak, rest, trimmed, parts, trims,
      removed⟩
  · have alone :
        (behindComment.trimLine? aloneComment).map Prod.fst =
          some (some "  ".toList) := by
      decide +kernel
    rw [unchanged] at alone
    cases alone
  · have ran : (behindComment.trimLine? aloneComment).map
        (fun answer => (answer.1, answer.2.buffer.text, answer.2.line)) =
          some (some "  ".toList, "a\n{{!c}}b".toList, 3) := by
      decide +kernel
    rw [trims, Option.map_some, Option.some.injEq, Prod.mk.injEq, Prod.mk.injEq,
      Option.some.injEq] at ran
    obtain ⟨rfl, text, line⟩ := ran
    obtain rfl : kept = "a\n".toList :=
      List.append_cancel_right (parts.before_eq.symm.trans (by rfl))
    obtain rfl : rest = "b".toList := by
      have joined :
          "a\n{{!c}}".toList ++ rest = "a\n{{!c}}".toList ++ "b".toList := by
        simpa using removed.stands.text_eq.symm.trans text
      exact List.append_cancel_left joined
    refine ⟨trimmed, trims, removed.stands, (removed.unread_near ?_).2, line,
      ?_⟩
    · decide +kernel
    · rw [removed.liveCount_eq]
      decide +kernel

end Reader

end Mustache
