import Mustache.Proofs.Buffer.Table
import Mustache.Proofs.Reader.Stream

/-!
# What a read leaves alone

A read moves the cursor and makes marks.  It leaves the text and the marks alone
that were there before, wherever the reader stands (`Reader.keeps_next`), and a
token that was read has the next two marks (`Reader.marks_of_next`).
-/

namespace Mustache

/-- The live marks of a buffer are those of its table. -/
theorem Buffer.livePosition?_eq_some_iff
    {buffer : Buffer}
    {mark : Mark}
    {position : Nat} :
    buffer.livePosition? mark = some position ↔
      buffer.table.states[mark.slot]? = some (.live position) := by
  rw [getElem?_states_table, livePosition?]
  rcases buffer.slots[mark.slot]? with _ | (⟨index⟩ | ⟨⟩ | ⟨⟩)
  · simp
  · simp only [Option.map_some, stateOf]
    cases buffer.live[index]? <;> simp
  · simp
  · simp

namespace Reader

variable
    {reader between after : Reader}
    {unread : Text}
    {delimiters : Delimiters}

/-- Nothing changes but the cursor, and marks that are new. -/
structure Keeps (reader after : Reader) : Prop where
  text_eq : after.buffer.text = reader.buffer.text
  linked : after.buffer.Linked
  cursor_eq : after.cursor = reader.cursor
  slots_le : reader.buffer.slots.size ≤ after.buffer.slots.size
  states_eq : ∀ slot < reader.buffer.slots.size, slot ≠ reader.cursor.slot →
    after.buffer.table.states[slot]? = reader.buffer.table.states[slot]?

theorem Keeps.refl (linked : reader.buffer.Linked) : Keeps reader reader :=
  ⟨rfl, linked, rfl, Nat.le_refl _, fun _ _ _ => rfl⟩

theorem Keeps.trans
    (first : Keeps reader between)
    (second : Keeps between after) :
    Keeps reader after where
  text_eq := second.text_eq.trans first.text_eq
  linked := second.linked
  cursor_eq := second.cursor_eq.trans first.cursor_eq
  slots_le := Nat.le_trans first.slots_le second.slots_le
  states_eq slot known other := by
    rw [← first.states_eq slot known other]
    apply second.states_eq slot (Nat.lt_of_lt_of_le known first.slots_le)
    rwa [first.cursor_eq]

theorem Keeps.state_eq
    (keeps : Keeps reader after)
    {mark : Mark}
    (known : mark.slot < reader.buffer.slots.size)
    (other : mark ≠ reader.cursor) :
    after.buffer.table.states[mark.slot]? =
      reader.buffer.table.states[mark.slot]? := by
  apply keeps.states_eq mark.slot known
  intro same
  exact other (by cases mark; cases same; rfl)

/-- A mark that was there before is where it was. -/
theorem Keeps.position?_eq
    (keeps : Keeps reader after)
    {mark : Mark}
    (known : mark.slot < reader.buffer.slots.size)
    (other : mark ≠ reader.cursor) :
    after.buffer.position? mark = reader.buffer.position? mark := by
  rw [← Buffer.position?_table, ← Buffer.position?_table, MarkTable.position?,
    keeps.state_eq known other]
  rfl

/-- And it is live if it was. -/
theorem Keeps.livePosition?_eq
    (keeps : Keeps reader after)
    {mark : Mark}
    (known : mark.slot < reader.buffer.slots.size)
    (other : mark ≠ reader.cursor) :
    after.buffer.livePosition? mark = reader.buffer.livePosition? mark := by
  apply Option.ext
  intro position
  rw [Buffer.livePosition?_eq_some_iff, Buffer.livePosition?_eq_some_iff,
    keeps.state_eq known other]

theorem keeps_settle
    (linked : reader.buffer.Linked)
    (position : Position) :
    Keeps reader (reader.mapBuffer fun buffer => buffer.settle position) where
  text_eq := Buffer.text_settle ..
  linked := ⟨linked.slot_of_entry, linked.entry_of_slot⟩
  cursor_eq := rfl
  slots_le := Nat.le_refl _
  states_eq _ _ _ := rfl

theorem keeps_setPosition
    (linked : reader.buffer.Linked)
    (position : Position)
    (line : Nat) :
    Keeps reader
      { reader with
        buffer := reader.buffer.setPosition reader.cursor position,
        line } where
  text_eq := Buffer.text_setPosition ..
  linked := Buffer.linked_setPosition linked _ _
  cursor_eq := rfl
  slots_le :=
    Nat.le_of_eq (congrArg Array.size (Buffer.slots_setPosition ..)).symm
  states_eq slot _ other := by
    rw [Buffer.setPosition, Buffer.table_modifyPosition linked,
      MarkTable.getElem?_states_modify, if_neg (Ne.symm other)]

theorem keeps_consume
    (linked : reader.buffer.Linked)
    (previous : Option Char)
    (text : Text) :
    Keeps reader (reader.consume previous text) := by
  rw [consume_eq]
  exact keeps_setPosition linked _ _

/-- Making a mark leaves the others alone. -/
theorem keeps_mark
    (linked : reader.buffer.Linked)
    (position : Position) :
    Keeps reader { reader with buffer := (reader.buffer.mark position).2 } where
  text_eq := rfl
  linked := Buffer.linked_mark linked position
  cursor_eq := rfl
  slots_le := by simp
  states_eq slot known _ := by
    rw [Buffer.table_mark linked, MarkTable.mark,
      List.getElem?_append_left (by simpa using known)]

theorem makeToken_eq
    (reader : Reader)
    (kind : TokenKind)
    (name source : Text)
    (start line : Nat)
    (delimiters : Option Delimiters) :
    reader.makeToken kind name source start line delimiters =
      (⟨kind, name, source, ⟨reader.buffer.slots.size⟩,
        ⟨reader.buffer.slots.size + 1⟩, line, delimiters⟩,
        { reader with
          buffer :=
            ((reader.buffer.mark (.offset start)).2.mark
              (.offset (start + source.byteSize))).2 }) := by
  have projected :
      reader.makeToken kind name source start line delimiters =
        (⟨kind, name, source, (reader.buffer.mark (.offset start)).1,
          ((reader.buffer.mark (.offset start)).2.mark
            (.offset (start + source.byteSize))).1, line, delimiters⟩,
          { reader with
            buffer :=
              ((reader.buffer.mark (.offset start)).2.mark
                (.offset (start + source.byteSize))).2 }) :=
    rfl
  rw [projected, Buffer.mark_fst, Buffer.mark_fst, Buffer.size_slots_mark]

theorem keeps_makeToken
    (linked : reader.buffer.Linked)
    (kind : TokenKind)
    (name source : Text)
    (start line : Nat)
    (delimiters : Option Delimiters) :
    Keeps reader
      (reader.makeToken kind name source start line delimiters).2 := by
  have first := keeps_mark linked (.offset start)
  exact first.trans
    (keeps_mark first.linked (.offset (start + source.byteSize)))

theorem keeps_consumeToken
    (linked : reader.buffer.Linked)
    (previous : Option Char)
    (kind : TokenKind)
    (name source : Text)
    (delimiters : Option Delimiters) :
    Keeps reader
      (reader.consumeToken previous kind name source delimiters).2 := by
  have consumed := keeps_consume linked previous source
  exact consumed.trans (keeps_makeToken consumed.linked _ _ _ _ _ _)

theorem keeps_take
    (linked : reader.buffer.Linked)
    (previous : Option Char)
    (unread : Text)
    (lexeme : Lexeme) :
    Keeps reader (reader.take previous unread lexeme).2 := by
  cases made : lexeme.piece unread with
  | ok piece =>
    rw [take_of_piece made]
    exact keeps_consumeToken linked previous piece.kind piece.name piece.source
      piece.delimiters
  | error fault =>
    cases lexeme with
    | plain source => cases made
    | unclosed => exact .refl linked
    | tag kind source body =>
      cases kind with
      | setDelimiters =>
        simp only [Lexeme.piece] at made
        split at made
        · rename_i nothing
          simp only [take, nothing]
          exact keeps_consume linked previous source
        · cases made
      | _ => cases made

/-- A read leaves the text and the marks alone that were there before. -/
theorem keeps_next
    (linked : reader.buffer.Linked)
    (delimiters : Delimiters) :
    Keeps reader (reader.next delimiters).2 := by
  have settled := keeps_settle linked (.mark reader.cursor)
  simp only [next]
  split
  · split
    · exact settled
    · exact settled.trans
        (keeps_makeToken settled.linked .text [] [] _ reader.line none)
  · rename_i passed unread _
    split
    · rename_i skipped _
      exact settled.trans (keeps_consume settled.linked passed.head? skipped)
    · rename_i skipped lexeme _
      have consumed :=
        settled.trans (keeps_consume settled.linked passed.head? skipped)
      exact consumed.trans (keeps_take consumed.linked _ _ lexeme)

theorem marks_of_take
    {previous : Option Char}
    {lexeme : Lexeme}
    {token : Token}
    (taken : reader.take previous unread lexeme = (.ok token, after)) :
    token.start = ⟨reader.buffer.slots.size⟩ ∧
    token.stop = ⟨reader.buffer.slots.size + 1⟩ ∧
    after.buffer.slots.size = reader.buffer.slots.size + 2 := by
  cases made : lexeme.piece unread with
  | error fault =>
    have failed := take_of_fault made reader previous
    rw [taken] at failed
    cases failed
  | ok piece =>
    rw [take_of_piece made, consumeToken_eq] at taken
    cases taken
    exact ⟨rfl, rfl, by simp only [Buffer.size_slots_mark, slots_consume]⟩

/-- The marks of a token that is read are the next two. -/
theorem marks_of_next
    {token : Token}
    (read : reader.next delimiters = (.ok (some token), after)) :
    token.start = ⟨reader.buffer.slots.size⟩ ∧
    token.stop = ⟨reader.buffer.slots.size + 1⟩ ∧
    after.buffer.slots.size = reader.buffer.slots.size + 2 := by
  simp only [next] at read
  split at read
  · split at read
    · cases read
    · rw [makeToken_eq] at read
      cases read
      exact ⟨rfl, rfl, by simp only [Buffer.size_slots_mark]; rfl⟩
  · split at read
    · cases read
    · rename_i passed unread _ _ skipped lexeme _
      generalize taken : Reader.take _ _ _ lexeme = answer at read
      rcases answer with ⟨error | given, left⟩
      · cases read
      · cases read
        have marks := marks_of_take taken
        rw [slots_consume] at marks
        exact marks

/-- What one read leaves alone, a stream of reads leaves alone. -/
theorem Streams.keeps
    {tokens : List Token}
    {ending : Option RenderError}
    (streams : Streams reader delimiters tokens ending after)
    (linked : reader.buffer.Linked) :
    Keeps reader after := by
  induction streams with
  | @finished reader after delimiters read
  | @failed reader after delimiters error read =>
    have kept := keeps_next linked delimiters
    rwa [read] at kept
  | @token reader between after delimiters token tokens ending read _ ih =>
    have kept := keeps_next linked delimiters
    rw [read] at kept
    exact kept.trans (ih kept.linked)

end Reader

end Mustache
