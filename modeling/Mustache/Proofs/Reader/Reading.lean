import Mustache.Proofs.Buffer.Marks
import Mustache.Proofs.Scan.Basic
import Mustache.Proofs.Text.Breaks

/-!
# Reading from a buffer is scanning its unread text

A reader cuts the text of its buffer in two at its cursor.  What it reads next
depends on the second part and the delimiter pair only, and is what `scan` finds
there (`Reader.next_of_found`).  A read moves the cursor behind the token, makes
two marks around the token, and changes nothing else.

Whether it gives a token or not, a read goes past a part of the unread text, and
counts the line breaks in it (`Reader.GoesPast`).  When it meets a fault, it
goes past a set-delimiter tag that is invalid, but not past a tag that is never
closed (`Reader.next_of_faulty`).
-/

namespace Mustache

/--
What a reader goes past when it meets a fault.  A tag that is never closed stays
unread.
-/
def Fault.passedText : Fault → Text
  | invalidDelimiters tag => tag
  | unbalancedSection _ | unclosedSection _ | unclosedTag _ => []

namespace Reader

/--
The cursor cuts the text of the buffer into what was passed and what is unread.
-/
structure At (reader : Reader) (passed unread : Text) : Prop where
  text_eq : reader.buffer.text = passed ++ unread
  linked : reader.buffer.Linked
  cursor_eq : reader.buffer.livePosition? reader.cursor = some passed.byteSize

variable
    {reader between after : Reader}
    {passed unread skipped more source rest : Text}
    {delimiters : Delimiters}

theorem At.position_eq (standing : reader.At passed unread) :
    reader.position = passed.byteSize :=
  Buffer.offset_of_livePosition? standing.cursor_eq

theorem at_ofText (text : Text) : (ofText text).At [] text where
  text_eq := rfl
  linked := Buffer.linked_mark (Buffer.linked_ofText text) _
  cursor_eq := by
    exact Buffer.livePosition?_mark (Buffer.linked_ofText text) (.offset 0)
      (ofText text).cursor

theorem livePosition?_ofText
    (text : Text)
    (mark : Mark) :
    (ofText text).buffer.livePosition? mark =
      if mark = (ofText text).cursor then some 0 else none := by
  have live :=
    Buffer.livePosition?_mark (Buffer.linked_ofText text) (.offset 0) mark
  rw [Buffer.livePosition?_ofText] at live
  exact live

/--
How reading a piece changes a reader, and where the token of the piece is.
-/
structure Took
    (reader after : Reader)
    (passed skipped : Text)
    (piece : Piece)
    (rest : Text)
    (token : Token) : Prop where
  piece_eq : token.piece = piece
  line_eq : token.line = reader.line + skipped.lineBreaksAfter passed.getLast?
  standing : after.At (passed ++ (skipped ++ piece.source)) rest
  line_after :
    after.line =
      reader.line + (skipped ++ piece.source).lineBreaksAfter passed.getLast?
  cursor_eq : after.cursor = reader.cursor
  start_eq : token.start = ⟨reader.buffer.slots.size⟩
  stop_eq : token.stop = ⟨reader.buffer.slots.size + 1⟩
  slots_eq : after.buffer.slots.size = reader.buffer.slots.size + 2
  live_eq :
    ∀ mark,
      after.buffer.livePosition? mark =
        if mark = token.stop then
          some (passed ++ (skipped ++ piece.source)).byteSize
        else
          if mark = token.start then
            some (passed ++ skipped).byteSize
          else
            if mark = reader.cursor then
              some (passed ++ (skipped ++ piece.source)).byteSize
            else
              reader.buffer.livePosition? mark

theorem consume_eq
    (reader : Reader)
    (previous : Option Char)
    (text : Text) :
    reader.consume previous text =
      { reader with
        buffer :=
          reader.buffer.setPosition reader.cursor
            (.offset (reader.position + text.byteSize))
        line := reader.line + text.lineBreaksAfter previous } :=
  rfl

theorem livePosition?_consume
    (standing : reader.At passed (skipped ++ rest))
    (previous : Option Char)
    (mark : Mark) :
    (reader.consume previous skipped).buffer.livePosition? mark =
      if mark = reader.cursor then
        some (passed ++ skipped).byteSize
      else
        reader.buffer.livePosition? mark := by
  rw [consume_eq]
  rw [Buffer.livePosition?_setPosition standing.linked]
  by_cases same : mark = reader.cursor
  · subst same
    rw [if_pos rfl, if_pos rfl, standing.cursor_eq, standing.position_eq,
      Text.byteSize_append]
    rfl
  · rw [if_neg same, if_neg same]

theorem At.consume
    (standing : reader.At passed (skipped ++ rest))
    (previous : Option Char) :
    (reader.consume previous skipped).At (passed ++ skipped) rest where
  text_eq := by
    rw [consume_eq, List.append_assoc, ← standing.text_eq]
    exact Buffer.text_setPosition ..
  linked := Buffer.linked_setPosition standing.linked _ _
  cursor_eq := by
    rw [livePosition?_consume standing]
    exact if_pos rfl

theorem slots_consume
    (reader : Reader)
    (previous : Option Char)
    (text : Text) :
    (reader.consume previous text).buffer.slots = reader.buffer.slots :=
  Buffer.slots_setPosition ..

theorem consumeToken_eq
    (reader : Reader)
    (previous : Option Char)
    (kind : TokenKind)
    (name source : Text)
    (delimiters : Option Delimiters) :
    reader.consumeToken previous kind name source delimiters =
      (⟨kind, name, source, ⟨reader.buffer.slots.size⟩,
        ⟨reader.buffer.slots.size + 1⟩, reader.line, delimiters⟩,
        { reader.consume previous source with
          buffer :=
            (((reader.consume previous source).buffer.mark
              (.offset reader.position)).2.mark
              (.offset (reader.position + source.byteSize))).2 }) := by
  have projected :
      reader.consumeToken previous kind name source delimiters =
        (⟨kind, name, source,
          ((reader.consume previous source).buffer.mark
            (.offset reader.position)).1,
          (((reader.consume previous source).buffer.mark
            (.offset reader.position)).2.mark
            (.offset (reader.position + source.byteSize))).1, reader.line,
          delimiters⟩,
          { reader.consume previous source with
            buffer :=
              (((reader.consume previous source).buffer.mark
                (.offset reader.position)).2.mark
                (.offset (reader.position + source.byteSize))).2 }) :=
    rfl
  rw [projected, Buffer.mark_fst, Buffer.mark_fst, Buffer.size_slots_mark,
    slots_consume]

/-- Reading a piece that stands at the cursor. -/
theorem At.took
    {piece : Piece}
    (standing : reader.At passed (piece.source ++ rest)) :
    Took reader
      (reader.consumeToken passed.getLast? piece.kind piece.name piece.source
        piece.delimiters).2
      passed [] piece rest
      (reader.consumeToken passed.getLast? piece.kind piece.name piece.source
        piece.delimiters).1 := by
  have moved := standing.consume passed.getLast?
  have linked := Buffer.linked_mark moved.linked (.offset reader.position)
  have known := Buffer.slot_lt_of_livePosition? standing.cursor_eq
  have notStart : reader.cursor ≠ ⟨reader.buffer.slots.size⟩ := by
    intro same
    simp [same] at known
  have notStop : reader.cursor ≠ ⟨reader.buffer.slots.size + 1⟩ := by
    intro same
    simp only [same] at known
    omega
  have live (mark : Mark) :
      (((reader.consume passed.getLast? piece.source).buffer.mark
          (.offset reader.position)).2.mark
          (.offset (reader.position + piece.source.byteSize))).2.livePosition?
          mark =
        if mark = ⟨reader.buffer.slots.size + 1⟩ then
          some (passed ++ piece.source).byteSize
        else
          if mark = ⟨reader.buffer.slots.size⟩ then
            some passed.byteSize
          else
            if mark = reader.cursor then
              some (passed ++ piece.source).byteSize
            else
              reader.buffer.livePosition? mark := by
    rw [Buffer.livePosition?_mark linked,
      Buffer.livePosition?_mark moved.linked, livePosition?_consume standing,
      Buffer.size_slots_mark, slots_consume, standing.position_eq,
      Text.byteSize_append]
    rfl
  rw [consumeToken_eq]
  refine ⟨rfl, rfl, ⟨moved.text_eq, Buffer.linked_mark linked _, ?_⟩, rfl, rfl,
    rfl, rfl, ?_, ?_⟩
  · have atCursor := live reader.cursor
    rw [if_neg notStop, if_neg notStart, if_pos rfl] at atCursor
    exact atCursor
  · simp only [Buffer.size_slots_mark, slots_consume]
  · simpa only [List.nil_append, List.append_nil] using live

/-- Passing over malformed tags before reading a piece. -/
theorem Took.skip
    {piece : Piece}
    {token : Token}
    (standing : reader.At passed (skipped ++ (piece.source ++ rest)))
    (took :
      Took (reader.consume passed.getLast? skipped) after (passed ++ skipped) []
        piece rest token) :
    Took reader after passed skipped piece rest token := by
  have live := livePosition?_consume standing passed.getLast?
  refine ⟨took.piece_eq, ?_, ?_, ?_, took.cursor_eq, ?_, ?_, ?_, ?_⟩
  · rw [took.line_eq]
    exact Nat.add_zero _
  · have standing := took.standing
    simpa using standing
  · rw [took.line_after, consume_eq, List.getLast?_append]
    simp [Nat.add_assoc, Text.lineBreaksAfter_append]
  · rw [took.start_eq, slots_consume]
  · rw [took.stop_eq, slots_consume]
  · rw [took.slots_eq, slots_consume]
  · intro mark
    rw [took.live_eq, live]
    have cursor :
        (reader.consume passed.getLast? skipped).cursor = reader.cursor :=
      rfl
    simp only [cursor, List.nil_append, List.append_assoc, List.append_nil]
    split
    · rfl
    · split
      · rfl
      · split <;> rfl

theorem take_of_piece
    {lexeme : Lexeme}
    {piece : Piece}
    {unread : Text}
    (made : lexeme.piece unread = .ok piece)
    (reader : Reader)
    (previous : Option Char) :
    reader.take previous unread lexeme =
      let (token, after) :=
        reader.consumeToken previous piece.kind piece.name piece.source
          piece.delimiters
      (.ok token, after) := by
  cases lexeme with
  | plain source =>
    cases made
    rfl
  | tag kind source body =>
    cases kind with
    | setDelimiters =>
      simp only [Lexeme.piece] at made
      simp only [take]
      cases installs : installed? body with
      | none =>
        rw [installs] at made
        cases made
      | some pair =>
        rw [installs] at made
        cases made
        rfl
    | _ =>
      cases made
      rfl
  | unclosed => cases made

theorem take_of_fault
    {lexeme : Lexeme}
    {fault : Fault}
    {unread : Text}
    (made : lexeme.piece unread = .error fault)
    (reader : Reader)
    (previous : Option Char) :
    (reader.take previous unread lexeme).1 =
      .error (fault.onLine reader.line) := by
  cases lexeme with
  | plain source => cases made
  | tag kind source body =>
    cases kind with
    | setDelimiters =>
      simp only [Lexeme.piece] at made
      simp only [take]
      cases installs : installed? body with
      | none =>
        rw [installs] at made
        cases made
        rfl
      | some pair =>
        rw [installs] at made
        cases made
    | _ => cases made
  | unclosed =>
    cases made
    rfl

/-! ## The text that is read -/

/-- A reader goes past a part of the unread text and counts its line breaks. -/
structure GoesPast
    (reader after : Reader)
    (passed more rest : Text) : Prop where
  standing : after.At (passed ++ more) rest
  line_after : after.line = reader.line + more.lineBreaksAfter passed.getLast?

theorem Took.goesPast
    {piece : Piece}
    {token : Token}
    (took : Took reader after passed skipped piece rest token) :
    GoesPast reader after passed (skipped ++ piece.source) rest :=
  ⟨took.standing, took.line_after⟩

theorem At.goesPast (standing : reader.At passed (more ++ rest)) :
    GoesPast reader (reader.consume passed.getLast? more) passed more rest :=
  ⟨standing.consume passed.getLast?, rfl⟩

/-- Settling at the cursor changes nothing about that. -/
theorem GoesPast.of_settled
    {position : Position}
    (goes :
      GoesPast (reader.mapBuffer fun buffer => buffer.settle position) after
        passed more rest) :
    GoesPast reader after passed more rest :=
  ⟨goes.standing, goes.line_after⟩

theorem GoesPast.trans
    {further : Text}
    (first : GoesPast reader between passed more unread)
    (second : GoesPast between after (passed ++ more) further rest) :
    GoesPast reader after passed (more ++ further) rest where
  standing := by
    rw [← List.append_assoc]
    exact second.standing
  line_after := by
    rw [second.line_after, first.line_after, Text.lineBreaksAfter_append,
      List.getLast?_append, Nat.add_assoc]

/--
A lexeme at fault is a set-delimiter tag or reaches to the end of the text.
-/
theorem At.goesPast_take
    {lexeme : Lexeme}
    {fault : Fault}
    (standing : reader.At passed unread)
    (isRead : Lexeme.read delimiters unread = lexeme)
    (made : lexeme.piece unread = .error fault) :
    ∃ rest,
      unread = fault.passedText ++ rest ∧
      ((∃ tag, fault = .invalidDelimiters tag) ∨ fault = .unclosedTag rest) ∧
      GoesPast reader (reader.take passed.getLast? unread lexeme).2 passed
        fault.passedText rest := by
  cases lexeme with
  | plain source => cases made
  | unclosed =>
    cases made
    refine ⟨unread, rfl, .inr rfl, ?_, rfl⟩
    rw [Fault.passedText, List.append_nil]
    exact standing
  | tag kind source body =>
    cases kind with
    | setDelimiters =>
      simp only [Lexeme.piece] at made
      split at made
      · rename_i nothing
        cases made
        rcases Lexeme.read_eq_tag isRead with ⟨-, rest, -, -, -, rfl, -⟩
        refine ⟨rest, rfl, .inl ⟨source, rfl⟩, ?_⟩
        simp only [take, nothing]
        exact standing.goesPast
      · cases made
    | _ => cases made

/-! ## The next token -/

theorem At.settle
    (standing : reader.At passed unread)
    (position : Position) :
    (reader.mapBuffer fun buffer => buffer.settle position).At passed
      unread where
  text_eq := by
    rw [← standing.text_eq]
    exact Buffer.text_settle ..
  linked := ⟨standing.linked.slot_of_entry, standing.linked.entry_of_slot⟩
  cursor_eq := standing.cursor_eq

/--
What a reader does next, said of the reader that has settled at its cursor.
-/
theorem next_eq
    (standing : reader.At passed unread)
    (delimiters : Delimiters) :
    reader.next delimiters =
      let settled :=
        reader.mapBuffer fun buffer => buffer.settle (.mark reader.cursor)
      match Lexeme.next delimiters [] unread with
      | (skipped, none) => (.ok none, settled.consume passed.getLast? skipped)
      | (skipped, some lexeme) =>
        let (result, after) :=
          (settled.consume passed.getLast? skipped).take
            (skipped.getLast?.or passed.getLast?) (unread.drop skipped.length)
            lexeme
        (result.map some, after) := by
  have settled := standing.settle (.mark reader.cursor)
  have walked := Buffer.walkTo?_of_text settled.text_eq settled.position_eq
  have previous : passed.reverse.head? = passed.getLast? := List.head?_reverse
  simp only [next]
  split
  · rename_i notFound
    rw [walked] at notFound
    cases notFound
  · rename_i found
    rw [walked] at found
    cases found
    cases Lexeme.next delimiters [] unread with
    | mk skipped lexeme =>
      cases lexeme with
      | none => simp only [previous]
      | some lexeme => simp only [previous]

/-- A reader that finds nothing goes past all that is left. -/
theorem next_of_finished
    (standing : reader.At passed unread)
    (result : scan delimiters unread = .finished skipped) :
    ∃ after,
      reader.next delimiters = (.ok none, after) ∧
      GoesPast reader after passed unread [] ∧
      ∀ mark,
        mark ≠ reader.cursor →
        after.buffer.livePosition? mark = reader.buffer.livePosition? mark := by
  have settled := standing.settle (.mark reader.cursor)
  rw [← List.append_nil unread] at settled
  rw [next_eq standing, next_of_scan_finished result]
  refine ⟨_, rfl, settled.goesPast.of_settled, ?_⟩
  intro mark other
  exact (livePosition?_consume settled passed.getLast? mark).trans
    (if_neg other)

/--
A reader that meets a fault reports it on its line, and goes past an invalid
tag.
-/
theorem next_of_faulty
    (standing : reader.At passed unread)
    {fault : Fault}
    (result : scan delimiters unread = .faulty skipped fault) :
    ∃ after,
      reader.next delimiters =
        (.error
            (fault.onLine
              (reader.line + skipped.lineBreaksAfter passed.getLast?)), after) ∧
      ∃ rest,
        unread = skipped ++ (fault.passedText ++ rest) ∧
        ((∃ tag, fault = .invalidDelimiters tag) ∨ fault = .unclosedTag rest) ∧
        GoesPast reader after passed (skipped ++ fault.passedText) rest := by
  unfold scan at result
  split at result
  · cases result
  · rename_i lexeme found
    split at result
    · rename_i made
      cases result
      rcases Lexeme.next_eq_some found with
        ⟨more, left, isSkipped, rfl, -, isRead, -⟩
      obtain rfl : skipped = more := isSkipped
      rw [List.drop_left] at made
      have skips := (standing.settle (.mark reader.cursor)).goesPast
      rcases skips.standing.goesPast_take isRead made with
        ⟨rest, rfl, reason, reads⟩
      have taken :=
        take_of_fault made
          ((reader.mapBuffer fun buffer =>
            buffer.settle (.mark reader.cursor)).consume passed.getLast?
            skipped)
          (passed ++ skipped).getLast?
      refine ⟨_, ?_, rest, rfl, reason, (skips.trans reads).of_settled⟩
      rw [List.getLast?_append] at taken ⊢
      rw [next_eq standing, found]
      simp only [List.drop_left]
      exact Prod.ext (congrArg (Except.map some) taken) rfl
    · cases result

/-- What a reader finds is what a scan of the unread text finds. -/
theorem next_of_found
    (standing : reader.At passed unread)
    {delimiters : Delimiters}
    {piece : Piece}
    (result : scan delimiters unread = .found skipped piece rest) :
    ∃ token after,
      reader.next delimiters = (.ok (some token), after) ∧
      Took reader after passed skipped piece rest token := by
  have parts := (scan_eq_found result).1
  unfold scan at result
  split at result
  · cases result
  · rename_i lexeme found
    split at result
    · cases result
    · rename_i made
      cases result
      have settled := standing.settle (.mark reader.cursor)
      rw [parts] at settled
      have consumed := settled.consume passed.getLast?
      have took := consumed.took
      rw [List.getLast?_append] at took
      have read :=
        take_of_piece made
          ((reader.mapBuffer fun buffer =>
            buffer.settle (.mark reader.cursor)).consume passed.getLast?
            skipped)
          (skipped.getLast?.or passed.getLast?)
      have whole := took.skip settled
      refine ⟨_, _, ?_, whole.piece_eq, whole.line_eq, whole.standing,
        whole.line_after, whole.cursor_eq, whole.start_eq, whole.stop_eq,
        whole.slots_eq, whole.live_eq⟩
      rw [next_eq standing, found]
      simp only [read]
      rfl

end Reader

end Mustache
