import Mustache.Proofs.Draft.Basic
import Mustache.Proofs.Reader.Pairing
import Mustache.Proofs.Reader.Trimming

/-!
# Rendering in place refines rendering with two texts

Between two nodes, the buffer holds a draft: the written text up to the cursor,
the unread text after it, and no live mark but the cursor (`Reader.Holds`).
Within a node the tokens stand between the two texts, with their marks around
them (`Shows` for a leaf, `Encloses` for a section).  Every edit of the buffer
is an edit of the draft.

Cutting the line around a tag of a section must not reach across the other tag
of the section.  It does not when neither the last line of the opener nor the
first line of the close tag is blank: what is not blank there stops the search
for the edge of the line.
-/

namespace Mustache

namespace Reader

open RenderM

variable
    {reader after : Reader}
    {draft : Draft}
    {token opener closer : Token}
    {source openerSource body closerSource skipped rest : Text}
    {piece : Piece}

/-- The buffer of a reader holds a draft, cut in two by the cursor. -/
structure Holds (reader : Reader) (draft : Draft) : Prop where
  standing : reader.At draft.written draft.unread
  line_eq : reader.line = draft.line
  only : ∀ mark, mark ≠ reader.cursor → reader.buffer.livePosition? mark = none

theorem holds_ofText (text : Text) :
    (ofText text).Holds (Draft.ofText text) where
  standing := at_ofText text
  line_eq := rfl
  only := by
    intro mark other
    rw [livePosition?_ofText, if_neg other]

/-! ## A leaf in its place -/

/--
A token stands between the two texts of a draft, and the cursor behind it.
-/
structure Shows
    (reader : Reader)
    (draft : Draft)
    (token : Token)
    (source : Text) : Prop where
  stands : reader.Stands token draft.written source draft.unread
  cursor_eq : reader.buffer.livePosition? reader.cursor =
    some (draft.written ++ source).byteSize
  line_eq : reader.line = draft.line
  other : reader.cursor ∉ token.marks
  only : ∀ mark, mark ≠ reader.cursor → mark ∉ token.marks →
    reader.buffer.livePosition? mark = none

theorem Holds.shows
    (holds : reader.Holds draft)
    (took : Took reader after draft.written skipped piece rest token) :
    after.Shows (draft.pass skipped piece.source rest) token piece.source := by
  have notMem := took.cursor_notMem holds.standing
  refine ⟨⟨?_, took.standing.linked, ?_, ?_⟩, ?_, ?_, ?_, ?_⟩
  · rw [took.standing.text_eq]
    simp [Draft.pass]
  · rw [took.live_start]
    rfl
  · rw [took.live_stop, ← List.append_assoc]
    rfl
  · rw [took.standing.cursor_eq, ← List.append_assoc]
    rfl
  · rw [took.line_after, holds.line_eq]
    rfl
  · rw [took.cursor_eq]
    exact notMem
  · intro mark notCursor free
    rw [took.cursor_eq] at notCursor
    rw [took.live_of_notMem notCursor free]
    exact holds.only mark notCursor

/-- Once its token is released, a reader behind the token holds a draft. -/
theorem At.holds_release
    (standing : reader.At draft.written draft.unread)
    (line_eq : reader.line = draft.line)
    (other : reader.cursor ∉ token.marks)
    (only :
      ∀ mark,
        mark ≠ reader.cursor → mark ∉ token.marks →
        reader.buffer.livePosition? mark = none) :
    (reader.release token).Holds draft where
  standing := standing.release token other
  line_eq := line_eq
  only := by
    intro mark notCursor
    rw [livePosition?_release standing]
    by_cases own : mark ∈ token.marks
    · rw [if_pos own]
    · rw [if_neg own]
      exact only mark notCursor own

/-- A leaf that stays in its place. -/
theorem Shows.keep (shows : reader.Shows draft token source) :
    (reader.release token).Holds (draft.write source) := by
  have standing :
      reader.At (draft.write source).written (draft.write source).unread := by
    refine ⟨?_, shows.stands.linked, shows.cursor_eq⟩
    rw [shows.stands.text_eq]
    exact (List.append_assoc ..).symm
  exact standing.holds_release shows.line_eq shows.other shows.only

/-- Putting a text in the place of a leaf. -/
theorem Shows.replace
    (shows : reader.Shows draft token source)
    (text : Text) :
    ∃ replaced,
      reader.replace? token.start token.stop text = some replaced ∧
      (replaced.release token).Holds (draft.write text) := by
  rcases replace?_of_text shows.stands.text_eq shows.stands.linked
      shows.stands.start_eq shows.stands.stop_eq shows.cursor_eq text with
    ⟨replaced, found, standing, line, cursor, dead⟩
  refine ⟨replaced, found, ?_⟩
  apply At.holds_release
    (standing : replaced.At (draft.write text).written draft.unread)
  · rw [line, shows.line_eq]
    rfl
  · rw [cursor]
    exact shows.other
  · intro mark notCursor free
    rw [cursor] at notCursor
    exact dead mark (shows.only mark notCursor free)

/-- Removing the line around a leaf. -/
theorem Shows.trim (shows : reader.Shows draft token source) :
    ∃ trimmed,
      reader.trimLine? token = some (draft.trimLine.1, trimmed) ∧
      trimmed.Shows draft.trimLine.2 token source := by
  cases alone : Text.lineBetween? draft.written draft.unread with
  | none =>
    refine ⟨reader, ?_, ?_⟩
    · rw [trimLine?_of_neighbours shows.stands alone]
      simp only [Draft.trimLine, alone]
    · simpa only [Draft.trimLine, alone] using shows
  | some around =>
    rcases around with ⟨indentation, line⟩
    rcases Text.lineBetween?_eq_some alone with ⟨isIndentation, isLine⟩
    rcases Text.indentationAtEnd?_eq_some isIndentation with ⟨kept, written, -⟩
    rcases Text.lineAtStart?_eq_some isLine with ⟨rest, unread, -⟩
    have stands := shows.stands
    have cursor := shows.cursor_eq
    rw [written, unread] at stands alone
    rw [written] at cursor
    rcases trimLine?_of_alone stands alone with ⟨trimmed, found, cut⟩
    have isTrimmed :
        draft.trimLine =
          (some indentation,
            ⟨kept, rest, draft.line + line.countLineBreaks⟩) := by
      rw [← written, ← unread] at alone
      simp only [Draft.trimLine, alone, Draft.dropIndentation_eq written]
      rw [Draft.dropLine_eq (by exact unread)]
    have position :
        reader.position = (kept ++ indentation ++ source).byteSize :=
      Buffer.offset_of_livePosition? cursor
    have behind (mark : Mark) (live : reader.buffer.livePosition? mark =
        some (kept ++ indentation ++ source).byteSize) :
        trimmed.buffer.livePosition? mark = some (kept ++ source).byteSize :=
      cut.live_inside live (Nat.le_refl _)
    have before :
        trimmed.buffer.livePosition? token.start = some kept.byteSize :=
      cut.live_start stands.start_eq
    refine ⟨trimmed, by rw [found, isTrimmed], ?_⟩
    rw [isTrimmed]
    refine ⟨⟨cut.text_eq, cut.linked, before, behind _ stands.stop_eq⟩, ?_, ?_,
      ?_, ?_⟩
    · rw [cut.cursor_eq]
      exact behind _ cursor
    · rw [cut.line_eq, position, if_pos (Nat.le_refl _), shows.line_eq]
    · rw [cut.cursor_eq]
      exact shows.other
    · intro mark notCursor free
      rw [cut.cursor_eq] at notCursor
      exact cut.live_of_none mark (shows.only mark notCursor free)

/-! ## A section in its place -/

/--
Two tags stand around a body between the two texts of a draft, and the cursor
behind them.
-/
structure Encloses
    (reader : Reader)
    (draft : Draft)
    (opener closer : Token)
    (openerSource body closerSource : Text) : Prop where
  text_eq : reader.buffer.text =
    draft.written ++ (openerSource ++ (body ++ (closerSource ++ draft.unread)))
  linked : reader.buffer.Linked
  opener_start :
    reader.buffer.livePosition? opener.start = some draft.written.byteSize
  opener_stop : reader.buffer.livePosition? opener.stop =
    some (draft.written ++ openerSource).byteSize
  closer_start : reader.buffer.livePosition? closer.start =
    some (draft.written ++ openerSource ++ body).byteSize
  closer_stop : reader.buffer.livePosition? closer.stop =
    some (draft.written ++ openerSource ++ body ++ closerSource).byteSize
  cursor_eq : reader.buffer.livePosition? reader.cursor =
    some (draft.written ++ openerSource ++ body ++ closerSource).byteSize
  line_eq : reader.line = draft.line
  notOpener : reader.cursor ∉ opener.marks
  notCloser : reader.cursor ∉ closer.marks
  only :
    ∀ mark,
      mark ≠ reader.cursor → mark ∉ opener.marks → mark ∉ closer.marks →
      reader.buffer.livePosition? mark = none

theorem Holds.encloses
    {between : Reader}
    {openerPiece closerPiece : Piece}
    {left : Text}
    (holds : reader.Holds draft)
    (took : Took reader between draft.written skipped openerPiece left opener)
    (closed :
      Closed between after (draft.written ++ (skipped ++ openerPiece.source))
        body closerPiece rest [] closer) :
    after.Encloses
      (draft.pass skipped (openerPiece.source ++ (body ++ closerPiece.source))
        rest)
      opener closer openerPiece.source body closerPiece.source := by
  have notMem := took.cursor_notMem holds.standing
  have known := Buffer.slot_lt_of_livePosition? holds.standing.cursor_eq
  have fresh := closed.start_fresh
  have stop := closed.stop_eq
  rw [took.slots_eq] at fresh
  have cursor : reader.cursor ≠ closer.start ∧ reader.cursor ≠ closer.stop := by
    constructor <;> intro same <;> rw [same] at known <;> omega
  refine ⟨?_, closed.standing.linked, ?_, ?_, ?_, ?_, ?_, ?_, ?_, ?_, ?_⟩
  · rw [closed.standing.text_eq]
    simp [Draft.pass]
  · rw [closed.live_of_opener holds.standing took (by simp [Token.marks]),
      took.live_start]
    rfl
  · rw [closed.live_opener_stop holds.standing took]
    simp [Draft.pass]
  · rw [closed.live_start]
    simp [Draft.pass]
  · rw [closed.live_eq, if_pos rfl]
    simp [Draft.pass]
  · rw [closed.standing.cursor_eq]
    simp [Draft.pass]
  · have lines := Text.lineBreaksAfter_append draft.written.getLast?
      (skipped ++ openerPiece.source) (body ++ closerPiece.source)
    rw [closed.line_after, took.line_after, holds.line_eq, List.getLast?_append,
      Nat.add_assoc, ← lines]
    simp [Draft.pass]
  · rw [closed.cursor_eq, took.cursor_eq]
    exact notMem
  · rw [closed.cursor_eq, took.cursor_eq]
    simp [Token.marks, cursor.1, cursor.2]
  · intro mark notCursor freeOpener freeCloser
    simp only [closed.cursor_eq, took.cursor_eq] at notCursor
    simp only [Token.marks, List.mem_cons, List.not_mem_nil, or_false, not_or]
      at freeCloser
    rw [closed.live_eq, if_neg freeCloser.2, if_neg freeCloser.1,
      took.cursor_eq, if_neg notCursor, if_neg List.not_mem_nil,
      took.live_of_notMem notCursor freeOpener]
    exact holds.only mark notCursor

/--
The close tag stands between what is before it in the buffer and the unread
text.
-/
theorem Encloses.stands_closer
    (encloses :
      reader.Encloses draft opener closer openerSource body closerSource) :
    reader.Stands closer (draft.written ++ openerSource ++ body) closerSource
      draft.unread :=
  ⟨by rw [encloses.text_eq]; simp, encloses.linked, encloses.closer_start,
    encloses.closer_stop⟩

/-- Removing the line around a close tag that is alone there. -/
theorem Encloses.trimCloser_of_alone
    {indentation line : Text}
    (encloses :
      reader.Encloses draft opener closer openerSource body closerSource)
    (isIndentation : body.innerIndentation? = some indentation)
    (isLine : draft.unread.lineAtStart? = some line)
    (around :
      Text.lineBetween? (draft.written ++ openerSource ++ body) draft.unread =
        some (indentation, line)) :
    ∃ trimmed,
      reader.trimLine? closer = some (some indentation, trimmed) ∧
      trimmed.Encloses (draft.trimCloser body).2 opener closer openerSource
        (draft.trimCloser body).1 closerSource := by
  have stands := encloses.stands_closer
  rcases Text.innerIndentation?_eq_some isIndentation with ⟨kept, rfl, -⟩
  rcases Text.lineAtStart?_eq_some isLine with ⟨rest, unread, -⟩
  rw [unread, ← List.append_assoc] at stands around
  rcases trimLine?_of_alone stands around with ⟨trimmed, found, cut⟩
  have isTrimmed :
      draft.trimCloser (kept ++ indentation) =
        (kept,
          { draft with
            unread := rest,
            line := draft.line + line.countLineBreaks }) := by
    simp only
      [Draft.trimCloser, isIndentation, isLine, Draft.dropLine_eq unread]
    simp
  have position :
      reader.position =
        (draft.written ++ openerSource ++ (kept ++ indentation) ++
          closerSource).byteSize :=
    Buffer.offset_of_livePosition? encloses.cursor_eq
  have behind (mark : Mark)
      (live :
        reader.buffer.livePosition? mark =
          some
            (draft.written ++ openerSource ++ (kept ++ indentation) ++
              closerSource).byteSize) :
      trimmed.buffer.livePosition? mark =
        some (draft.written ++ openerSource ++ kept ++ closerSource).byteSize :=
    cut.live_inside (by rwa [← List.append_assoc] at live) (Nat.le_refl _)
  refine ⟨trimmed, found, ?_⟩
  rw [isTrimmed]
  refine ⟨?_, cut.linked, ?_, ?_, ?_, behind _ encloses.closer_stop, ?_, ?_, ?_,
    ?_, ?_⟩
  · rw [cut.text_eq]
    simp
  · exact cut.live_before encloses.opener_start (by simp)
  · exact cut.live_before encloses.opener_stop (by simp)
  · exact cut.live_start
      (by simpa only [List.append_assoc] using encloses.closer_start)
  · rw [cut.cursor_eq]
    exact behind _ encloses.cursor_eq
  · rw [cut.line_eq, position,
      if_pos (by simp only [List.append_assoc]; exact Nat.le_refl _),
      encloses.line_eq]
  · rw [cut.cursor_eq]
    exact encloses.notOpener
  · rw [cut.cursor_eq]
    exact encloses.notCloser
  · intro mark notCursor freeOpener freeCloser
    rw [cut.cursor_eq] at notCursor
    exact cut.live_of_none mark
      (encloses.only mark notCursor freeOpener freeCloser)

/--
Removing the line around the close tag, when the last line of the opener is not
blank.
-/
theorem Encloses.trimCloser
    (encloses :
      reader.Encloses draft opener closer openerSource body closerSource)
    (inked : Text.indentationAtEnd? openerSource.reverse = none) :
    ∃ trimmed,
      reader.trimLine? closer =
        some
          (Text.indentationBetween? (draft.written ++ openerSource ++ body)
              draft.unread, trimmed) ∧
      trimmed.Encloses (draft.trimCloser body).2 opener closer openerSource
        (draft.trimCloser body).1 closerSource := by
  have inner :
      Text.indentationAtEnd? (draft.written ++ openerSource ++ body).reverse =
        body.innerIndentation? :=
    Text.indentationAtEnd?_append
      (Text.indentationAtEnd?_append_eq_none inked draft.written) body
  rcases Text.both_or_none body.innerIndentation? draft.unread.lineAtStart? with
    ⟨indentation, line, isIndentation, isLine⟩ | nothing
  · have around := Text.lineBetween?_of_some (inner.trans isIndentation) isLine
    rcases encloses.trimCloser_of_alone isIndentation isLine around with
      ⟨trimmed, found, held⟩
    exact ⟨trimmed, by rw [Text.indentationBetween?, around]; exact found, held⟩
  · have around := Text.lineBetween?_of_none (nothing.imp_left inner.trans)
    refine ⟨reader, ?_, ?_⟩
    · rw [trimLine?_of_neighbours encloses.stands_closer around,
        Text.indentationBetween?, around]
      rfl
    · rw [Draft.trimCloser_of_none nothing]
      exact encloses

/--
The opener stands between the written text and what is behind it in the buffer.
-/
theorem Encloses.stands_opener
    (encloses :
      reader.Encloses draft opener closer openerSource body closerSource) :
    reader.Stands opener draft.written openerSource
      (body ++ (closerSource ++ draft.unread)) :=
  ⟨encloses.text_eq, encloses.linked, encloses.opener_start,
    encloses.opener_stop⟩

/-- Removing the line around an opener that is alone there. -/
theorem Encloses.trimOpener_of_alone
    {indentation line : Text}
    (encloses :
      reader.Encloses draft opener closer openerSource body closerSource)
    (nonempty : closerSource ≠ [])
    (isIndentation :
      Text.indentationAtEnd? draft.written.reverse = some indentation)
    (isLine : body.innerLine? = some line)
    (around :
      Text.lineBetween? draft.written (body ++ (closerSource ++ draft.unread)) =
        some (indentation, line)) :
    ∃ trimmed,
      reader.trimLine? opener = some ((draft.trimOpener body).1, trimmed) ∧
      trimmed.Encloses (draft.trimOpener body).2.2 opener closer openerSource
        (draft.trimOpener body).2.1 closerSource := by
  have stands := encloses.stands_opener
  rcases Text.indentationAtEnd?_eq_some isIndentation with ⟨kept, written, -⟩
  rcases Text.innerLine?_eq_some isLine with ⟨left, rfl, -⟩
  rw [written, List.append_assoc] at stands around
  rcases trimLine?_of_alone stands around with ⟨trimmed, found, cut⟩
  have isTrimmed : draft.trimOpener (line ++ left) =
      (some indentation, left, { draft with written := kept }) := by
    simp only [Draft.trimOpener, isIndentation, isLine,
      Draft.dropIndentation_eq written]
    simp
  have position :
      reader.position =
        (kept ++ indentation ++ openerSource ++ line ++
          (left ++ closerSource)).byteSize := by
    have atCursor : reader.position = _ :=
      Buffer.offset_of_livePosition? encloses.cursor_eq
    rw [written] at atCursor
    simpa only [List.append_assoc] using atCursor
  have notEmpty : closerSource.byteSize ≠ 0 :=
    mt Text.byteSize_eq_zero.1 nonempty
  have before :
      trimmed.buffer.livePosition? opener.start = some kept.byteSize :=
    cut.live_start stands.start_eq
  have behind (mark : Mark)
      (live :
        reader.buffer.livePosition? mark =
          some
            (draft.written ++ openerSource ++ (line ++ left) ++
              closerSource).byteSize) :
      trimmed.buffer.livePosition? mark =
        some (kept ++ openerSource ++ left ++ closerSource).byteSize := by
    rw [written] at live
    have before :
        reader.buffer.livePosition? mark =
          some
            (kept ++ indentation ++ openerSource ++ line ++
              (left ++ closerSource)).byteSize := by
      simpa only [List.append_assoc] using live
    have moved := cut.live_behind before (by simp)
    simpa only [List.append_assoc] using moved
  refine ⟨trimmed, by rw [found, isTrimmed], ?_⟩
  rw [isTrimmed]
  refine ⟨?_, cut.linked, before,
    cut.live_inside stands.stop_eq (Nat.le_refl _), ?_,
    behind _ encloses.closer_stop, ?_, ?_, ?_, ?_, ?_⟩
  · rw [cut.text_eq]
  · have start := encloses.closer_start
    rw [written] at start
    exact cut.live_behind (by simpa only [List.append_assoc] using start)
      (by simp)
  · rw [cut.cursor_eq]
    exact behind _ encloses.cursor_eq
  · have far :
        ¬reader.position ≤ (kept ++ indentation ++ openerSource).byteSize := by
      rw [position]
      simp only [Text.byteSize_append]
      omega
    rw [cut.line_eq, if_neg far, encloses.line_eq]
    rfl
  · rw [cut.cursor_eq]
    exact encloses.notOpener
  · rw [cut.cursor_eq]
    exact encloses.notCloser
  · intro mark notCursor freeOpener freeCloser
    rw [cut.cursor_eq] at notCursor
    exact cut.live_of_none mark
      (encloses.only mark notCursor freeOpener freeCloser)

/--
Removing the line around the opener, when the first line of the close tag is not
blank.
-/
theorem Encloses.trimOpener
    (encloses :
      reader.Encloses draft opener closer openerSource body closerSource)
    (inked : closerSource.lineAtStart? = none) :
    ∃ trimmed,
      reader.trimLine? opener = some ((draft.trimOpener body).1, trimmed) ∧
      trimmed.Encloses (draft.trimOpener body).2.2 opener closer openerSource
        (draft.trimOpener body).2.1 closerSource := by
  have inner :
      (body ++ (closerSource ++ draft.unread)).lineAtStart? = body.innerLine? :=
    Text.lineAtStart?_append
      (Text.lineAtStart?_append_eq_none inked draft.unread) body
  have nonempty : closerSource ≠ [] := by
    rintro rfl
    cases inked
  rcases Text.both_or_none (Text.indentationAtEnd? draft.written.reverse)
      body.innerLine? with ⟨indentation, line, isIndentation, isLine⟩ | nothing
  · have around := Text.lineBetween?_of_some isIndentation (inner.trans isLine)
    exact encloses.trimOpener_of_alone nonempty isIndentation isLine around
  · have around := Text.lineBetween?_of_none (nothing.imp_right inner.trans)
    refine ⟨reader, ?_, ?_⟩
    · rw [trimLine?_of_neighbours encloses.stands_opener around,
        Draft.trimOpener_of_none nothing]
    · rw [Draft.trimOpener_of_none nothing]
      exact encloses

/-- Putting a text in the place of a section. -/
theorem Encloses.replace
    (encloses :
      reader.Encloses draft opener closer openerSource body closerSource)
    (text : Text) :
    ∃ replaced,
      reader.replace? opener.start closer.stop text = some replaced ∧
      ((replaced.release opener).release closer).Holds (draft.write text) := by
  have split :
      reader.buffer.text =
        draft.written ++
          (openerSource ++ body ++ closerSource ++ draft.unread) := by
    rw [encloses.text_eq]
    simp only [List.append_assoc]
  have atStop := encloses.closer_stop
  have atCursor := encloses.cursor_eq
  simp only [List.append_assoc] at split atStop atCursor
  have within :
      reader.buffer.text =
        draft.written ++
          ((openerSource ++ (body ++ closerSource)) ++ draft.unread) := by
    simpa only [List.append_assoc] using split
  rcases replace?_of_text within encloses.linked encloses.opener_start atStop
      atCursor text with ⟨replaced, found, standing, line, cursor, dead⟩
  have notOpener : replaced.cursor ∉ opener.marks := by
    rw [cursor]
    exact encloses.notOpener
  refine ⟨replaced, found, ?_⟩
  have stands :
      (replaced.release opener).At (draft.write text).written draft.unread :=
    standing.release opener notOpener
  apply At.holds_release stands
  · show replaced.line = _
    rw [line, encloses.line_eq]
    rfl
  · show replaced.cursor ∉ _
    rw [cursor]
    exact encloses.notCloser
  · intro mark notCursor free
    rw [livePosition?_release standing]
    by_cases own : mark ∈ opener.marks
    · rw [if_pos own]
    · rw [if_neg own]
      have notCursor : mark ≠ reader.cursor := by
        rw [← cursor]
        exact notCursor
      exact dead mark (encloses.only mark notCursor own free)

theorem Encloses.body_eq
    (encloses :
      reader.Encloses draft opener closer openerSource body closerSource) :
    reader.buffer.substring (.mark opener.stop) (.mark closer.start) =
      body := by
  have split :
      reader.buffer.text =
        (draft.written ++ openerSource) ++
          (body ++ (closerSource ++ draft.unread)) := by
    rw [encloses.text_eq, List.append_assoc]
  apply Buffer.substring_of_text split
  · exact Buffer.offset_of_livePosition? encloses.opener_stop
  · exact Buffer.offset_of_livePosition? encloses.closer_start

end Reader

end Mustache
