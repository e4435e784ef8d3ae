import Mustache.Proofs.Reader.Frame

/-!
# Collecting tokens does not disturb a stream

What a read answers, and where it leaves the reader, depends on nothing but the
text of the buffer, the byte at which the cursor is, and the line
(`Reader.next_determined`).  The cursor may be inside a character or beyond the
end of the text.  Tokens are compared by what they show (`Sighting`), since the
marks of a token that is read later come later in the buffer.

To collect all tokens, a reader goes back to the start of its buffer, and when
it is through, or at the first error, it returns to its place.  So whatever is
read afterwards is read as if nothing had been collected, and what is collected
does not depend on that place (`Reader.tokens_undisturbed`).
-/

namespace Mustache

/--
What a token shows in a buffer: its piece, its line, and where its ends are.
-/
structure Sighting where
  piece : Piece
  line : Nat
  start : Option Nat
  stop : Option Nat
deriving DecidableEq, Repr

/-- What a token shows in a buffer. -/
def Token.sighting (buffer : Buffer) (token : Token) : Sighting :=
  ⟨token.piece, token.line, buffer.position? token.start,
    buffer.position? token.stop⟩

namespace Reader

/-- What a read shows. -/
def glimpse (answer : Except RenderError (Option Token) × Reader) :
    Except RenderError (Option Sighting) :=
  answer.1.map (Option.map (Token.sighting answer.2.buffer))

/-- What the tokens show that were collected. -/
def overview (answer : Except RenderError (List Token) × Reader) :
    Except RenderError (List Sighting) :=
  answer.1.map (List.map (Token.sighting answer.2.buffer))

/-- What one read after the other shows, each with a pair of its own. -/
def glimpses (reader : Reader) :
    List Delimiters → List (Except RenderError (Option Sighting))
  | [] => []
  | delimiters :: pairs =>
    glimpse (reader.next delimiters) ::
      glimpses (reader.next delimiters).2 pairs

/--
The cursor is at a byte of a text, which may be inside a character or beyond the
end.
-/
structure StandsIn
    (reader : Reader)
    (text : Text)
    (position line : Nat) : Prop where
  text_eq : reader.buffer.text = text
  linked : reader.buffer.Linked
  cursor_eq : reader.buffer.livePosition? reader.cursor = some position
  line_eq : reader.line = line

variable
    {reader other between after : Reader}
    {text passed more rest : Text}
    {position line : Nat}
    {delimiters : Delimiters}
    {token : Token}
    {tokens : List Token}
    {ending : Option RenderError}

theorem StandsIn.position_eq (stands : reader.StandsIn text position line) :
    reader.position = position :=
  Buffer.offset_of_livePosition? stands.cursor_eq

theorem StandsIn.settle
    (stands : reader.StandsIn text position line)
    (place : Position) :
    (reader.mapBuffer fun buffer => buffer.settle place).StandsIn text position
      line where
  text_eq := (Buffer.text_settle ..).trans stands.text_eq
  linked := (keeps_settle stands.linked place).linked
  cursor_eq := stands.cursor_eq
  line_eq := stands.line_eq

theorem StandsIn.at
    (stands : reader.StandsIn (passed ++ rest) passed.byteSize line) :
    reader.At passed rest :=
  ⟨stands.text_eq, stands.linked, stands.cursor_eq⟩

theorem At.standsIn (standing : reader.At passed rest) :
    reader.StandsIn (passed ++ rest) passed.byteSize reader.line :=
  ⟨standing.text_eq, standing.linked, standing.cursor_eq, rfl⟩

theorem GoesPast.standsIn
    (goes : GoesPast reader after passed more rest)
    (isLine : reader.line = line) :
    after.StandsIn (passed ++ (more ++ rest)) (passed ++ more).byteSize
      (line + more.lineBreaksAfter passed.getLast?) := by
  have stands := goes.standing.standsIn
  rwa [List.append_assoc, goes.line_after, isLine] at stands

/-! ## A read -/

/-- A token can be made of any range of bytes, without reading anything. -/
theorem StandsIn.makeToken
    (stands : reader.StandsIn text position line)
    (kind : TokenKind)
    (name source : Text)
    (start tokenLine : Nat)
    (installs : Option Delimiters) :
    let made := reader.makeToken kind name source start tokenLine installs
    made.1.sighting made.2.buffer =
      ⟨⟨kind, name, source, installs⟩, tokenLine, some start,
        some (start + source.byteSize)⟩ ∧
    made.2.StandsIn text position line := by
  have linked := Buffer.linked_mark stands.linked (.offset start)
  have known := Buffer.slot_lt_of_livePosition? stands.cursor_eq
  have live (mark : Mark) :
      ((reader.buffer.mark (.offset start)).2.mark
          (.offset (start + source.byteSize))).2.livePosition? mark =
        if mark = ⟨reader.buffer.slots.size + 1⟩ then
          some (start + source.byteSize)
        else
          if mark = ⟨reader.buffer.slots.size⟩ then
            some start
          else
            reader.buffer.livePosition? mark := by
    rw [Buffer.livePosition?_mark linked,
      Buffer.livePosition?_mark stands.linked, Buffer.size_slots_mark]
    rfl
  have isStart := live ⟨reader.buffer.slots.size⟩
  have isStop := live ⟨reader.buffer.slots.size + 1⟩
  have isCursor := live reader.cursor
  rw [if_neg (by simp), if_pos rfl] at isStart
  rw [if_pos rfl] at isStop
  rw [if_neg, if_neg, stands.cursor_eq] at isCursor
  · dsimp only
    rw [makeToken_eq]
    refine ⟨?_, stands.text_eq, Buffer.linked_mark linked _, isCursor,
      stands.line_eq⟩
    simp only [Token.sighting, Token.piece,
      Buffer.position?_of_livePosition? isStart,
      Buffer.position?_of_livePosition? isStop]
  · intro same
    simp [same] at known
  · intro same
    simp only [same] at known
    omega

/-- Inside a character or beyond the end a read does not move the cursor. -/
theorem StandsIn.next_of_split
    (stands : reader.StandsIn text position line)
    (split : Text.walk [] text position = none)
    (delimiters : Delimiters) :
    glimpse (reader.next delimiters) =
      (if text.byteSize ≤ position then
          .ok none
        else
          .ok
            (some ⟨⟨.text, [], [], none⟩, line, some position,
              some position⟩)) ∧
    (reader.next delimiters).2.StandsIn text position line := by
  have settled := stands.settle (.mark reader.cursor)
  have notFound :
      (reader.mapBuffer fun buffer =>
          buffer.settle (.mark reader.cursor)).buffer.walkTo?
          (.mark reader.cursor) = none := by
    rw [Buffer.walkTo?_eq_walk, settled.text_eq]
    exact (congrArg (Text.walk [] text) settled.position_eq).trans split
  have sizes : (reader.mapBuffer fun buffer =>
      buffer.settle (.mark reader.cursor)).buffer.size = text.byteSize := by
    rw [← Buffer.byteSize_text, settled.text_eq]
  simp only [next]
  split
  · rw [sizes, settled.position_eq]
    split
    · exact ⟨rfl, settled⟩
    · rcases settled.makeToken .text [] [] position line none with
        ⟨shows, after⟩
      rw [settled.line_eq]
      exact ⟨congrArg (Except.ok ∘ some) shows, after⟩
  · rename_i found
    exact absurd (notFound.symm.trans found) (by simp)

/--
What a read shows, and where it leaves the reader, depends on where the reader
stands.
-/
theorem next_determined
    (text : Text)
    (position line : Nat)
    (delimiters : Delimiters) :
    ∃ shown position' line',
      ∀ reader : Reader,
        reader.StandsIn text position line →
        glimpse (reader.next delimiters) = shown ∧
          (reader.next delimiters).2.StandsIn text position' line' := by
  cases walked : Text.walk [] text position with
  | none =>
    exact ⟨_, _, _, fun reader stands => stands.next_of_split walked delimiters⟩
  | some parts =>
    rcases parts with ⟨_, unread⟩
    rcases Text.walk_eq_some_iff.1 walked with ⟨passed, -, rfl, rfl⟩
    cases result : scan delimiters unread with
    | finished skipped =>
      refine ⟨.ok none, (passed ++ unread).byteSize,
        line + unread.lineBreaksAfter passed.getLast?, fun reader stands => ?_⟩
      rcases next_of_finished stands.at result with ⟨after, read, goes, -⟩
      rw [read]
      have behind := goes.standsIn stands.line_eq
      rw [List.append_nil] at behind
      exact ⟨rfl, behind⟩
    | faulty skipped fault =>
      refine ⟨.error
          (fault.onLine (line + skipped.lineBreaksAfter passed.getLast?)),
        (passed ++ (skipped ++ fault.passedText)).byteSize,
        line + (skipped ++ fault.passedText).lineBreaksAfter passed.getLast?,
        fun reader stands => ?_⟩
      rcases next_of_faulty stands.at result with
        ⟨after, read, rest, parts, -, goes⟩
      rw [read, stands.line_eq]
      have behind := goes.standsIn stands.line_eq
      rw [List.append_assoc, ← parts] at behind
      exact ⟨rfl, behind⟩
    | found skipped piece rest =>
      refine ⟨.ok
          (some ⟨piece, line + skipped.lineBreaksAfter passed.getLast?,
            some (passed ++ skipped).byteSize,
            some (passed ++ (skipped ++ piece.source)).byteSize⟩),
        (passed ++ (skipped ++ piece.source)).byteSize,
        line + (skipped ++ piece.source).lineBreaksAfter passed.getLast?,
        fun reader stands => ?_⟩
      rcases next_of_found stands.at result with ⟨token, after, read, took⟩
      rw [read]
      have behind := took.goesPast.standsIn stands.line_eq
      rw [List.append_assoc, ← (scan_eq_found result).1] at behind
      refine ⟨congrArg (Except.ok ∘ some) ?_, behind⟩
      simp only [Token.sighting, took.piece_eq, took.line_eq, stands.line_eq,
        Buffer.position?_of_livePosition? took.live_start,
        Buffer.position?_of_livePosition? took.live_stop]

/-! ## Reads one after the other -/

/--
Readers that stand alike show the same when they read, and stand alike
afterwards.
-/
theorem StandsIn.next_alike
    {answer : Except RenderError (Option Token)}
    (first : reader.StandsIn text position line)
    (second : other.StandsIn text position line)
    (read : reader.next delimiters = (answer, after)) :
    ∃ answer' after' position' line',
      other.next delimiters = (answer', after') ∧
      glimpse (answer', after') = glimpse (answer, after) ∧
      after.StandsIn text position' line' ∧
      after'.StandsIn text position' line' := by
  rcases next_determined text position line delimiters with
    ⟨shown, position', line', shows⟩
  rcases shows reader first with ⟨glimpsed, behind⟩
  rcases shows other second with ⟨glimpsed', behind'⟩
  rw [read] at glimpsed behind
  exact ⟨_, _, position', line', rfl, glimpsed'.trans glimpsed.symm, behind,
    behind'⟩

/-- Readers that stand alike show the same for any number of reads. -/
theorem StandsIn.glimpses_alike
    (first : reader.StandsIn text position line)
    (second : other.StandsIn text position line)
    (pairs : List Delimiters) :
    other.glimpses pairs = reader.glimpses pairs := by
  induction pairs generalizing reader other position line with
  | nil => rfl
  | cons delimiters pairs ih =>
    rcases read : reader.next delimiters with ⟨answer, after⟩
    rcases first.next_alike second read with
      ⟨answer', after', position', line', read', same, behind, behind'⟩
    rw [glimpses, glimpses, read, read', same, ih behind behind']

/--
What a token shows when it is read it shows as long as nothing else changes.
-/
theorem StandsIn.sighting_eq
    {final : Reader}
    (stands : reader.StandsIn text position line)
    (read : reader.next delimiters = (.ok (some token), between))
    (keeps : Keeps between final) :
    token.sighting final.buffer = token.sighting between.buffer := by
  rcases marks_of_next read with ⟨isStart, isStop, size⟩
  have known := Buffer.slot_lt_of_livePosition? stands.cursor_eq
  have sameCursor : between.cursor = reader.cursor := by
    have kept := keeps_next stands.linked delimiters
    rw [read] at kept
    exact kept.cursor_eq
  have stays (mark : Mark) (fresh : reader.buffer.slots.size ≤ mark.slot)
      (made : mark.slot < between.buffer.slots.size) :
      final.buffer.position? mark = between.buffer.position? mark := by
    apply keeps.position?_eq made
    rintro rfl
    rw [sameCursor] at fresh
    exact absurd known (Nat.not_lt.2 fresh)
  simp only [Token.sighting]
  rw [stays token.start (by simp [isStart]) (by simp [isStart, size]),
    stays token.stop (by simp [isStop]) (by simp [isStop, size])]

/--
What is streamed is the same for readers that stand alike, and so is where it
ends.
-/
theorem Streams.alike
    (streams : Streams reader delimiters tokens ending after)
    (first : reader.StandsIn text position line)
    (second : other.StandsIn text position line) :
    ∃ tokens' after' position' line',
      Streams other delimiters tokens' ending after' ∧
      after.StandsIn text position' line' ∧
      after'.StandsIn text position' line' ∧
      ∀ final final',
        Keeps after final → Keeps after' final' →
        tokens'.map (Token.sighting final'.buffer) =
          tokens.map (Token.sighting final.buffer) := by
  induction streams generalizing other position line with
  | finished read =>
    rcases first.next_alike second read with
      ⟨answer', after', position', line', read', same, behind, behind'⟩
    rcases answer' with error | _ | token
    · cases same
    · exact ⟨[], after', position', line', .finished read', behind, behind',
        fun _ _ _ _ => rfl⟩
    · cases same
  | failed read =>
    rcases first.next_alike second read with
      ⟨answer', after', position', line', read', same, behind, behind'⟩
    rcases answer' with error | given
    · cases same
      exact ⟨[], after', position', line', .failed read', behind, behind',
        fun _ _ _ _ => rfl⟩
    · cases same
  | @token reader between after delimiters token tokens ending read further
      ih =>
    rcases first.next_alike second read with
      ⟨answer', between', position', line', read', same, behind, behind'⟩
    rcases answer' with error | _ | token'
    · cases same
    · cases same
    · have shown :
          token'.sighting between'.buffer = token.sighting between.buffer :=
        Option.some.inj (Except.ok.inj same)
      have samePair :
          delimitersAfter delimiters token' =
            delimitersAfter delimiters token :=
        congrArg (fun sighting => sighting.piece.delimiters.getD delimiters)
          shown
      rcases ih behind behind' with
        ⟨tokens', after', _, _, further', ends, ends', shows⟩
      rw [← samePair] at further'
      refine ⟨token' :: tokens', after', _, _, .token read' further', ends,
        ends', ?_⟩
      intro final final' keeps keeps'
      have kept := (further.keeps behind.linked).trans keeps
      have kept' := (further'.keeps behind'.linked).trans keeps'
      rw [List.map_cons, List.map_cons, shows final final' keeps keeps',
        first.sighting_eq read kept, second.sighting_eq read' kept', shown]

/-! ## Collecting all tokens -/

section

variable
    (linked : reader.buffer.Linked)
    (live : reader.buffer.livePosition? reader.cursor = some position)
include linked live

theorem standsIn_rewound : reader.rewound.StandsIn reader.buffer.text 0 1 :=
  (standsAt_rewound linked live).standing.standsIn

/--
Collecting tokens leads back to where the reader was, and leaves the other marks
alone.
-/
theorem tokens_streamed (delimiters : Delimiters) :
    ∃ tokens ending left,
      Streams reader.rewound delimiters tokens ending left ∧
      Keeps left (reader.tokens delimiters).2 ∧
      Keeps reader (reader.tokens delimiters).2 ∧
      (reader.tokens delimiters).2.StandsIn reader.buffer.text position
        reader.line ∧
      (reader.tokens delimiters).1 = collected tokens ending := by
  have start := standsIn_rewound linked live
  rcases (standsAt_rewound linked live).streams delimiters with ⟨left, streams⟩
  rcases streams.alike start start with ⟨-, -, place, _, -, ends, -⟩
  have isTokens := tokens_of_rewound linked live streams
  have goesBack : Keeps reader reader.rewound :=
    keeps_setPosition linked (.offset 0) 1
  have collects := streams.keeps start.linked
  have sameCursor : left.cursor = reader.cursor := collects.cursor_eq
  have returns :
      Keeps left
        { left with
          line := reader.line
          buffer :=
            left.buffer.setPosition reader.cursor
              (.offset reader.position) } := by
    rw [← sameCursor]
    exact keeps_setPosition ends.linked _ _
  refine ⟨_, _, left, streams, ?_, ?_, ?_, congrArg Prod.fst isTokens⟩
  · rw [isTokens]
    exact returns
  · rw [isTokens]
    exact goesBack.trans (collects.trans returns)
  · rw [isTokens]
    refine ⟨returns.text_eq.trans ends.text_eq, returns.linked, ?_, rfl⟩
    show (left.buffer.setPosition reader.cursor _).livePosition? left.cursor = _
    rw [sameCursor, Buffer.livePosition?_setPosition ends.linked, if_pos rfl,
      ← sameCursor, ends.cursor_eq]
    exact congrArg some (Buffer.offset_of_livePosition? live)

end

/-- What is collected does not depend on where the reader was. -/
theorem overview_tokens
    {place : Nat}
    (linked : reader.buffer.Linked)
    (live : reader.buffer.livePosition? reader.cursor = some position)
    (linkedOther : other.buffer.Linked)
    (liveOther : other.buffer.livePosition? other.cursor = some place)
    (sameText : other.buffer.text = reader.buffer.text)
    (delimiters : Delimiters) :
    overview (other.tokens delimiters) =
      overview (reader.tokens delimiters) := by
  have start := standsIn_rewound linked live
  have startOther := standsIn_rewound linkedOther liveOther
  rw [sameText] at startOther
  rcases tokens_streamed linked live delimiters with
    ⟨tokens, ending, left, streams, returns, -, -, isAnswer⟩
  rcases tokens_streamed linkedOther liveOther delimiters with
    ⟨tokens', ending', left', streams', returns', -, -, isAnswer'⟩
  rcases streams.alike start startOther with ⟨_, _, -, -, further, -, -, shows⟩
  rcases further.unique streams' with ⟨rfl, rfl, rfl⟩
  have same := shows _ _ returns returns'
  unfold overview
  rw [isAnswer, isAnswer']
  cases ending with
  | none => exact congrArg Except.ok same
  | some error => simp only [collected, Except.map]

/--
Collecting all tokens, to the end or to the first error, leaves the text, the
line and every mark as they were, the cursor among them.  Whatever is read
afterwards, with whatever pairs, is read as if nothing had been collected.  What
is collected is the same wherever the reader was.
-/
theorem tokens_undisturbed
    (linked : reader.buffer.Linked)
    (live : reader.buffer.livePosition? reader.cursor = some position)
    (delimiters : Delimiters) :
    let after := (reader.tokens delimiters).2
    (after.buffer.text = reader.buffer.text ∧ after.cursor = reader.cursor ∧
      after.line = reader.line ∧
      (∀ mark : Mark, mark.slot < reader.buffer.slots.size →
        after.buffer.position? mark = reader.buffer.position? mark ∧
        after.buffer.livePosition? mark = reader.buffer.livePosition? mark) ∧
      ∀ pairs, after.glimpses pairs = reader.glimpses pairs) ∧
    ∀ (other : Reader) (place : Nat),
      other.buffer.Linked →
      other.buffer.livePosition? other.cursor = some place →
      other.buffer.text = reader.buffer.text →
      overview (other.tokens delimiters) =
        overview (reader.tokens delimiters) := by
  rcases tokens_streamed linked live delimiters with
    ⟨-, -, -, -, -, keeps, stands, -⟩
  refine ⟨⟨keeps.text_eq, keeps.cursor_eq, stands.line_eq, ?_, ?_⟩, ?_⟩
  · intro mark known
    by_cases isCursor : mark = reader.cursor
    · subst isCursor
      have there := stands.cursor_eq
      rw [keeps.cursor_eq] at there
      exact ⟨(Buffer.position?_of_livePosition? there).trans
        (Buffer.position?_of_livePosition? live).symm, there.trans live.symm⟩
    · exact ⟨keeps.position?_eq known isCursor,
        keeps.livePosition?_eq known isCursor⟩
  · exact StandsIn.glimpses_alike ⟨rfl, linked, live, rfl⟩ stands
  · intro other place linkedOther liveOther sameText
    exact overview_tokens linked live linkedOther liveOther sameText delimiters

/-- A cursor inside a character, and a tag that is never closed. -/
theorem tokens_undisturbed_inside :
    let start := ofText "aé\r\n<#b>\n<c".toList
    let pair : Delimiters := ⟨['<'], ['>']⟩
    let read := (start.next pair).2
    let reader : Reader :=
      { read with buffer := read.buffer.setPosition read.cursor (.offset 2) }
    let after := (reader.tokens pair).2
    (reader.tokens pair).1 = .error (.unclosedTag "<c".toList 3) ∧
    (reader.glimpses [pair]) =
      [.ok (some ⟨⟨.text, [], [], none⟩, 2, some 2, some 2⟩)] ∧
    after.buffer.livePosition? reader.cursor = some 2 ∧
    after.line = reader.line ∧
    (∀ pairs, after.glimpses pairs = reader.glimpses pairs) ∧
    overview (start.tokens pair) = overview (reader.tokens pair) := by
  intro start pair read reader after
  have standing := at_ofText "aé\r\n<#b>\n<c".toList
  have keeps := keeps_next standing.linked pair
  have linked : reader.buffer.Linked :=
    Buffer.linked_setPosition keeps.linked _ _
  have live : reader.buffer.livePosition? reader.cursor = some 2 := by
    decide +kernel
  rcases tokens_undisturbed linked live pair with
    ⟨⟨-, -, sameLine, marks, reads⟩, others⟩
  have known := Buffer.slot_lt_of_livePosition? live
  refine ⟨by decide +kernel, by decide +kernel,
    (marks reader.cursor known).2.trans live, sameLine, reads, ?_⟩
  exact others start 0 standing.linked standing.cursor_eq (by decide +kernel)

end Reader

end Mustache
