import Mustache.Proofs.Reader.Pairing

/-!
# Streaming tokens

A stream is what a reader gives when it is asked for tokens until there are none
left or one of them is faulty (`Reader.Streams`).  Each token moves the cursor
on, so every stream ends.

What is streamed depends on the place of the reader only: the text on either
side of its cursor, the line, and how many marks were made in its buffer, since
the marks of a token are the next two.  Letting go of marks changes nothing
about that.  So all readers at a place stream the same tokens, marks and lines
included (`lexed`), whether or not the tokens that were read before are released
on the way.
-/

namespace Mustache

/-- Where a reader stands, and how many marks were made in its buffer. -/
structure Place where
  passed : Text
  unread : Text
  line : Nat
  marks : Nat
deriving DecidableEq, Repr

namespace Place

/-- The start of a text, when the cursor is the only mark. -/
def start (text : Text) : Place :=
  ⟨[], text, 1, 1⟩

/-- The line after a text that stands at the place. -/
def lineAfter (place : Place) (text : Text) : Nat :=
  place.line + text.lineBreaksAfter place.passed.getLast?

/-- The token of a piece that stands after some malformed tags. -/
def token (place : Place) (skipped : Text) (piece : Piece) : Token :=
  ⟨piece.kind, piece.name, piece.source, ⟨place.marks⟩, ⟨place.marks + 1⟩,
    place.lineAfter skipped, piece.delimiters⟩

/-- The place behind a piece that stands after some malformed tags. -/
def behind
    (place : Place)
    (skipped : Text)
    (piece : Piece)
    (rest : Text) : Place :=
  ⟨place.passed ++ (skipped ++ piece.source), rest,
    place.lineAfter (skipped ++ piece.source), place.marks + 2⟩

end Place

/--
The tokens of a text from a place on, and the error that ends them too early.
-/
def lexed
    (delimiters : Delimiters)
    (place : Place) : List Token × Option RenderError :=
  match _isScan : scan delimiters place.unread with
  | .finished _ => ([], none)
  | .faulty skipped fault => ([], some (fault.onLine (place.lineAfter skipped)))
  | .found skipped piece rest =>
    (place.token skipped piece ::
        (lexed (piece.delimitersAfter delimiters)
          (place.behind skipped piece rest)).1,
      (lexed (piece.delimitersAfter delimiters)
        (place.behind skipped piece rest)).2)
termination_by place.unread.length
decreasing_by all_goals exact length_lt_of_scan _isScan

section Lexed

variable
    {delimiters : Delimiters}
    {place : Place}
    {skipped rest : Text}
    {piece : Piece}
    {fault : Fault}

theorem lexed_of_finished
    (result : scan delimiters place.unread = .finished skipped) :
    lexed delimiters place = ([], none) := by
  rw [lexed]
  split <;> simp_all

theorem lexed_of_faulty
    (result : scan delimiters place.unread = .faulty skipped fault) :
    lexed delimiters place =
      ([], some (fault.onLine (place.lineAfter skipped))) := by
  rw [lexed]
  split <;> simp_all

theorem lexed_of_found
    (result : scan delimiters place.unread = .found skipped piece rest) :
    lexed delimiters place =
      (place.token skipped piece ::
          (lexed (piece.delimitersAfter delimiters)
            (place.behind skipped piece rest)).1,
        (lexed (piece.delimitersAfter delimiters)
          (place.behind skipped piece rest)).2) := by
  rw [lexed]
  split <;> simp_all

/-- Every token takes something off the unread text. -/
theorem length_lexed_le
    (delimiters : Delimiters)
    (place : Place) :
    (lexed delimiters place).1.length ≤ place.unread.length := by
  fun_induction lexed delimiters place with
  | case1 | case2 => exact Nat.zero_le _
  | case3 delimiters place skipped piece rest isScan ih =>
    have shorter := length_lt_of_scan isScan
    exact Nat.le_trans (Nat.succ_le_succ ih) shorter

end Lexed

namespace Reader

/-- A reader stands at a place. -/
structure StandsAt (reader : Reader) (place : Place) : Prop where
  standing : reader.At place.passed place.unread
  line_eq : reader.line = place.line
  marks_eq : reader.buffer.slots.size = place.marks

variable
    {reader after : Reader}
    {place : Place}
    {delimiters : Delimiters}
    {skipped rest : Text}
    {piece : Piece}
    {token : Token}

theorem standsAt_ofText (text : Text) :
    (ofText text).StandsAt (Place.start text) where
  standing := at_ofText text
  line_eq := rfl
  marks_eq := rfl

/-- Letting go of a token does not move a reader. -/
theorem StandsAt.release
    (stands : reader.StandsAt place)
    (other : reader.cursor ∉ token.marks) :
    (reader.release token).StandsAt place where
  standing := stands.standing.release token other
  line_eq := stands.line_eq
  marks_eq := by
    rw [← stands.marks_eq]
    exact Buffer.size_slots_releaseToken ..

theorem Took.token_eq
    (stands : reader.StandsAt place)
    (took : Took reader after place.passed skipped piece rest token) :
    token = place.token skipped piece := by
  have start := took.start_eq
  have stop := took.stop_eq
  have line := took.line_eq
  rw [stands.marks_eq] at start stop
  rw [stands.line_eq] at line
  rw [← took.piece_eq]
  cases token
  simp_all [Place.token, Place.lineAfter, Token.piece]

theorem Took.standsAt
    (stands : reader.StandsAt place)
    (took : Took reader after place.passed skipped piece rest token) :
    after.StandsAt (place.behind skipped piece rest) where
  standing := took.standing
  line_eq := by
    rw [took.line_after, stands.line_eq]
    rfl
  marks_eq := by
    rw [took.slots_eq, stands.marks_eq]
    rfl

theorem StandsAt.next_of_faulty
    (stands : reader.StandsAt place)
    {fault : Fault}
    (result : scan delimiters place.unread = .faulty skipped fault) :
    ∃ after,
      reader.next delimiters =
        (.error (fault.onLine (place.lineAfter skipped)), after) := by
  rcases Reader.next_of_faulty stands.standing result with ⟨after, read, -⟩
  rw [stands.line_eq] at read
  exact ⟨after, read⟩

/-- A reader at a place finds the token that depends on the place only. -/
theorem StandsAt.next_of_found
    (stands : reader.StandsAt place)
    (result : scan delimiters place.unread = .found skipped piece rest) :
    ∃ after,
      reader.next delimiters = (.ok (some (place.token skipped piece)), after) ∧
      Took reader after place.passed skipped piece rest
        (place.token skipped piece) ∧
      after.StandsAt (place.behind skipped piece rest) := by
  rcases Reader.next_of_found stands.standing result with
    ⟨token, after, read, took⟩
  rw [took.token_eq stands] at read took
  exact ⟨after, read, took, took.standsAt stands⟩

/-! ## Streams -/

/--
The tokens that a reader gives one after the other, the error that ends them too
early if there is one, and the reader that is left.
-/
inductive Streams :
    Reader → Delimiters → List Token → Option RenderError → Reader → Prop
  /-- There are no more tokens. -/
  | finished
      {reader after : Reader}
      {delimiters : Delimiters}
      (read : reader.next delimiters = (.ok none, after)) :
      Streams reader delimiters [] none after
  /-- There is an error. -/
  | failed
      {reader after : Reader}
      {delimiters : Delimiters}
      {error : RenderError}
      (read : reader.next delimiters = (.error error, after)) :
      Streams reader delimiters [] (some error) after
  /-- There is a token, and the stream goes on behind it. -/
  | token
      {reader between after : Reader}
      {delimiters : Delimiters}
      {token : Token}
      {tokens : List Token}
      {ending : Option RenderError}
      (read : reader.next delimiters = (.ok (some token), between))
      (further :
        Streams between (delimitersAfter delimiters token) tokens ending
          after) :
      Streams reader delimiters (token :: tokens) ending after

/-- A token that a reader gave stands in the unread text. -/
theorem took_of_next
    {passed unread : Text}
    (standing : reader.At passed unread)
    (read : reader.next delimiters = (.ok (some token), after)) :
    ∃ skipped rest,
      scan delimiters unread = .found skipped token.piece rest ∧
      Took reader after passed skipped token.piece rest token := by
  cases result : scan delimiters unread with
  | finished skipped =>
    rcases next_of_finished standing result with ⟨_, ended, -⟩
    rw [read] at ended
    cases ended
  | faulty skipped fault =>
    rcases Reader.next_of_faulty standing result with ⟨_, failed, -⟩
    rw [read] at failed
    cases failed
  | found skipped piece rest =>
    rcases Reader.next_of_found standing result with ⟨_, _, found, took⟩
    rw [read] at found
    cases found
    rw [took.piece_eq]
    exact ⟨skipped, rest, rfl, took⟩

/-- A reader that gives no more tokens is left at the end. -/
theorem ended_of_next
    {passed unread : Text}
    (standing : reader.At passed unread)
    (read : reader.next delimiters = (.ok none, after)) :
    scan delimiters unread = .finished unread ∧
    GoesPast reader after passed unread [] ∧
    ∀ mark,
      mark ≠ reader.cursor →
      after.buffer.livePosition? mark = reader.buffer.livePosition? mark := by
  cases result : scan delimiters unread with
  | finished skipped =>
    rcases next_of_finished standing result with ⟨_, ended, goes, live⟩
    rw [read] at ended
    cases ended
    rw [scan_eq_finished result]
    exact ⟨rfl, goes, live⟩
  | faulty skipped fault =>
    rcases Reader.next_of_faulty standing result with ⟨_, failed, -⟩
    rw [read] at failed
    cases failed
  | found skipped piece rest =>
    rcases Reader.next_of_found standing result with ⟨_, _, found, -⟩
    rw [read] at found
    cases found

/--
A stream without an error ends at the end of the text, and other marks stay
where they are.
-/
theorem Streams.ends
    {tokens : List Token}
    {ending : Option RenderError}
    {passed unread : Text}
    (streams : Streams reader delimiters tokens ending after)
    (noError : ending = none)
    (standing : reader.At passed unread) :
    after.At (passed ++ unread) [] ∧
    ∀ mark position,
      mark ≠ reader.cursor → reader.buffer.livePosition? mark = some position →
      after.buffer.livePosition? mark = some position := by
  induction streams generalizing passed unread with
  | finished read =>
    rcases ended_of_next standing read with ⟨-, goes, live⟩
    exact ⟨goes.standing,
      fun mark position other known => (live mark other).trans known⟩
  | failed => cases noError
  | @token reader between after delimiters token tokens ending read _ ih =>
    rcases took_of_next standing read with ⟨skipped, rest, isScan, took⟩
    rcases ih noError took.standing with ⟨ended, live⟩
    rcases (scan_eq_found isScan).1 with rfl
    refine ⟨by simpa only [List.append_assoc] using ended, ?_⟩
    intro mark position other known
    have notOwn : mark ∉ token.marks := by
      intro own
      have fresh := took.fresh own
      have old := Buffer.slot_lt_of_livePosition? known
      omega
    apply live mark position
    · rwa [took.cursor_eq]
    · rwa [took.live_of_notMem other notOwn]

/--
Every reader has a stream, and what is streamed depends on its place only.
-/
theorem StandsAt.streams
    (stands : reader.StandsAt place)
    (delimiters : Delimiters) :
    ∃ after,
      Streams reader delimiters (lexed delimiters place).1
        (lexed delimiters place).2 after := by
  fun_induction lexed delimiters place generalizing reader with
  | case1 delimiters place skipped isScan =>
    rcases next_of_finished stands.standing isScan with ⟨after, read, -⟩
    exact ⟨after, .finished read⟩
  | case2 delimiters place skipped fault isScan =>
    rcases stands.next_of_faulty isScan with ⟨after, read⟩
    exact ⟨after, .failed read⟩
  | case3 delimiters place skipped piece rest isScan ih =>
    rcases stands.next_of_found isScan with ⟨between, read, -, behind⟩
    rcases ih behind with ⟨after, further⟩
    exact ⟨after, .token read further⟩

/-- A reader streams in one way only. -/
theorem Streams.unique
    {tokens tokens' : List Token}
    {ending ending' : Option RenderError}
    {after' : Reader}
    (first : Streams reader delimiters tokens ending after)
    (second : Streams reader delimiters tokens' ending' after') :
    tokens = tokens' ∧ ending = ending' ∧ after = after' := by
  induction first generalizing tokens' ending' after' with
  | finished read =>
    cases second with
    | finished read' =>
      rw [read] at read'
      cases read'
      exact ⟨rfl, rfl, rfl⟩
    | failed read' | token read' =>
      rw [read] at read'
      cases read'
  | failed read =>
    cases second with
    | failed read' =>
      rw [read] at read'
      cases read'
      exact ⟨rfl, rfl, rfl⟩
    | finished read' | token read' =>
      rw [read] at read'
      cases read'
  | token read _ ih =>
    cases second with
    | finished read' | failed read' =>
      rw [read] at read'
      cases read'
    | token read' further =>
      rw [read] at read'
      cases read'
      rcases ih further with ⟨rfl, rfl, rfl⟩
      exact ⟨rfl, rfl, rfl⟩

/-- The answer that stands for a stream. -/
def collected (tokens : List Token) :
    Option RenderError → Except RenderError (List Token)
  | none => .ok tokens
  | some error => .error error

/-- Collecting tokens is streaming them, given enough steps. -/
theorem readAll_of_streams
    {tokens : List Token}
    {ending : Option RenderError}
    (streams : Streams reader delimiters tokens ending after)
    {budget : Nat}
    (enough : tokens.length < budget)
    (collectedBefore : Array Token) :
    readAll budget reader delimiters collectedBefore =
      (collected (collectedBefore.toList ++ tokens) ending, after) := by
  induction streams generalizing budget collectedBefore with
  | finished read =>
    rcases budget with _ | budget
    · cases enough
    simp only [readAll, read, List.append_nil]
    rfl
  | failed read =>
    rcases budget with _ | budget
    · cases enough
    simp only [readAll, read]
    rfl
  | token read further ih =>
    rcases budget with _ | budget
    · cases enough
    simp only [readAll, read]
    rw [ih (Nat.lt_of_succ_lt_succ enough)]
    simp

/-- A reader that is moved back to the start of its buffer. -/
def rewound (reader : Reader) : Reader :=
  { reader with
    line := 1
    buffer := reader.buffer.setPosition reader.cursor (.offset 0) }

theorem standsAt_rewound
    (linked : reader.buffer.Linked)
    {position : Nat}
    (live : reader.buffer.livePosition? reader.cursor = some position) :
    reader.rewound.StandsAt ⟨[], reader.buffer.text, 1,
      reader.buffer.slots.size⟩ where
  standing := by
    refine ⟨Buffer.text_setPosition .., Buffer.linked_setPosition linked _ _,
      ?_⟩
    show
      (reader.buffer.setPosition reader.cursor (.offset 0)).livePosition?
          reader.cursor = _
    rw [Buffer.livePosition?_setPosition linked, if_pos rfl, live]
    rfl
  line_eq := rfl
  marks_eq := congrArg Array.size (Buffer.slots_setPosition ..)

/--
All tokens of a buffer are streamed from its start, and the reader goes back to
its place.
-/
theorem tokens_of_rewound
    {tokens : List Token}
    {ending : Option RenderError}
    (linked : reader.buffer.Linked)
    {position : Nat}
    (live : reader.buffer.livePosition? reader.cursor = some position)
    (streams : Streams reader.rewound delimiters tokens ending after) :
    reader.tokens delimiters =
      (collected tokens ending,
        { after with
          line := reader.line
          buffer :=
            after.buffer.setPosition reader.cursor
              (.offset reader.position) }) := by
  rcases (standsAt_rewound linked live).streams delimiters with ⟨left, further⟩
  have enough : tokens.length < reader.buffer.size + 1 := by
    have fewer :=
      length_lexed_le delimiters
        ⟨[], reader.buffer.text, 1, reader.buffer.slots.size⟩
    have fits := Text.length_le_byteSize reader.buffer.text
    rw [← (streams.unique further).1] at fewer
    rw [Buffer.byteSize_text] at fits
    have least : tokens.length ≤ reader.buffer.text.length := fewer
    omega
  have all : readAll (reader.buffer.size + 1) reader.rewound delimiters #[] =
      (collected tokens ending, after) :=
    readAll_of_streams streams enough #[]
  rw [rewound] at all
  simp only [Reader.tokens, all]

/--
All tokens of a text are those of its stream, and the reader goes back to the
start.
-/
theorem tokens_of_streams
    {text : Text}
    {tokens : List Token}
    {ending : Option RenderError}
    (streams : Streams (ofText text) delimiters tokens ending after) :
    (ofText text).tokens delimiters =
      (collected tokens ending,
        { after with
          line := 1
          buffer :=
            after.buffer.setPosition (ofText text).cursor (.offset 0) }) := by
  have standing := at_ofText text
  have same : (ofText text).rewound = ofText text := rfl
  rw [tokens_of_rewound standing.linked standing.cursor_eq (by rwa [same]),
    standing.position_eq]
  rfl

end Reader

end Mustache
