import Mustache.Proofs.Reader.Stream
import Mustache.Proofs.Token.Shape

/-!
# Tokens cut a template into segments

The tokens of a template, together with the malformed tags that make no token,
are the template cut into pieces: one after the other, nothing left out and
nothing twice (`Segmented`).  Text reaches to the nearest opening delimiter and
a tag to its nearest closing one, each time of the pair that is in effect there.
The marks of a token stay at its ends while the tokens behind it are read.

A call that gives a token or passes over a malformed tag moves the cursor on,
wherever the reader stands (`Reader.position_lt_of_next`).
-/

namespace Mustache

/-- A token, or a malformed tag that was passed over. -/
inductive Segment where
  | token (token : Token)
  | malformed (source : Text)
deriving DecidableEq, Repr

namespace Segment

/-- Everything from the start of a segment to its end. -/
def source : Segment → Text
  | token made => made.source
  | malformed source => source

/-- The token, unless the segment is a malformed tag. -/
def token? : Segment → Option Token
  | token made => some made
  | malformed _ => none

end Segment

/--
The marks of a token are at its ends when it stands behind the given text.
-/
structure Token.PlacedIn
    (token : Token)
    (buffer : Buffer)
    (passed : Text) : Prop where
  start_eq : buffer.position? token.start = some passed.byteSize
  stop_eq : buffer.position? token.stop = some (passed ++ token.source).byteSize

/--
A text behind another one, cut into segments.  The pair is the one in effect at
the start of the text, and the marks of the tokens are those of the buffer.
-/
inductive Segmented (buffer : Buffer) :
    Delimiters → Text → Text → List Segment → Prop
  /-- There is nothing left. -/
  | done
      (delimiters : Delimiters)
      (passed : Text) :
      Segmented buffer delimiters passed [] []
  /-- Text to the end, or to the nearest opening delimiter. -/
  | text
      {delimiters : Delimiters}
      {passed rest : Text}
      {token : Token}
      {segments : List Segment}
      (isText : token.kind = .text)
      (nonempty : token.source ≠ [])
      (absent :
        delimiters.canMarkTags = true →
        delimiters.opening.AbsentFrom token.source rest)
      (ends : rest = [] ∨ delimiters.opening ≠ [] ∧ delimiters.opening <+: rest)
      (placed : token.PlacedIn buffer passed)
      (further :
        Segmented buffer delimiters (passed ++ token.source) rest segments) :
      Segmented buffer delimiters passed (token.source ++ rest)
        (.token token :: segments)
  /-- A tag, and the pair it installs, if any, from there on. -/
  | tag
      {delimiters : Delimiters}
      {passed body rest : Text}
      {token : Token}
      {segments : List Segment}
      (marksTags : delimiters.canMarkTags = true)
      (shape : delimiters.TagAt token.kind token.source body rest)
      (made :
        (Lexeme.tag token.kind token.source body).piece (token.source ++ rest) =
          .ok token.piece)
      (wellFormed : token.kind = .implicit → body = ['.'])
      (placed : token.PlacedIn buffer passed)
      (further :
        Segmented buffer (Reader.delimitersAfter delimiters token)
          (passed ++ token.source) rest segments) :
      Segmented buffer delimiters passed (token.source ++ rest)
        (.token token :: segments)
  /-- A tag that starts with a dot and goes on after it. -/
  | malformed
      {delimiters : Delimiters}
      {passed source body rest : Text}
      {segments : List Segment}
      (marksTags : delimiters.canMarkTags = true)
      (shape : delimiters.TagAt .implicit source body rest)
      (more : body ≠ ['.'])
      (further : Segmented buffer delimiters (passed ++ source) rest segments) :
      Segmented buffer delimiters passed (source ++ rest)
        (.malformed source :: segments)

variable
    {buffer : Buffer}
    {delimiters : Delimiters}
    {passed unread skipped rest : Text}
    {segments : List Segment}

theorem Delimiters.canMarkTags_iff :
    delimiters.canMarkTags = true ↔
      delimiters.opening ≠ [] ∧ delimiters.closing ≠ [] := by
  simp [canMarkTags]

theorem Delimiters.TagAt.source_ne_nil
    {kind : TokenKind}
    {source body : Text}
    (shape : delimiters.TagAt kind source body rest)
    (marksTags : delimiters.canMarkTags = true) :
    source ≠ [] := by
  have opening := (Delimiters.canMarkTags_iff.1 marksTags).1
  cases shape <;> simp [opening]

namespace Segmented

/-- The segments make up the text. -/
theorem flatMap_source
    (segmented : Segmented buffer delimiters passed unread segments) :
    segments.flatMap Segment.source = unread := by
  induction segmented with
  | done => rfl
  | text _ _ _ _ _ _ ih => rw [List.flatMap_cons, ih]; rfl
  | tag _ _ _ _ _ _ ih => rw [List.flatMap_cons, ih]; rfl
  | malformed _ _ _ _ ih => rw [List.flatMap_cons, ih]; rfl

/-- No token is empty, and what is between the marks of a token is the token. -/
theorem substring_eq
    (segmented : Segmented buffer delimiters passed unread segments)
    (whole : buffer.text = passed ++ unread) :
    ∀ token ∈ segments.filterMap Segment.token?,
      token.source ≠ [] ∧
      buffer.substring (.mark token.start) (.mark token.stop) =
        token.source := by
  have between {token : Token} {passed rest : Text}
      (placed : token.PlacedIn buffer passed)
      (whole : buffer.text = passed ++ (token.source ++ rest)) :
      buffer.substring (.mark token.start) (.mark token.stop) =
        token.source := by
    apply Buffer.substring_of_text whole
    · simp [Buffer.offset, placed.start_eq]
    · simp [Buffer.offset, placed.stop_eq]
  induction segmented with
  | done => simp
  | text _ nonempty _ _ placed _ ih =>
    intro token member
    rcases List.mem_cons.1 member with rfl | later
    · exact ⟨nonempty, between placed whole⟩
    · exact ih (by rw [whole, List.append_assoc]) token later
  | tag marksTags shape _ _ placed _ ih =>
    intro token member
    rcases List.mem_cons.1 member with rfl | later
    · exact ⟨shape.source_ne_nil marksTags, between placed whole⟩
    · exact ih (by rw [whole, List.append_assoc]) token later
  | malformed _ _ _ _ ih =>
    intro token member
    exact ih (by rw [whole, List.append_assoc]) token member

/-- Malformed tags that are passed over are segments before the others. -/
theorem of_next
    (buffer : Buffer)
    {before all : Text}
    {found : Option Lexeme}
    (passes : Lexeme.next delimiters before unread = (all, found)) :
    ∃ skipped rest,
      all = before ++ skipped ∧
      unread = skipped ++ rest ∧
      ∀ passed segments,
        Segmented buffer delimiters (passed ++ skipped) rest segments →
        ∃ sources : List Text,
          Segmented buffer delimiters passed unread
            (sources.map .malformed ++ segments) := by
  fun_induction Lexeme.next delimiters before unread with
  | case1 before =>
    cases passes
    exact ⟨[], [], by simp, rfl,
      fun passed segments further => ⟨[], by simpa using further⟩⟩
  | case2 before unread nonempty source isMalformed ih =>
    rcases ih passes with ⟨skipped, rest, rfl, split, later⟩
    rcases Lexeme.malformed?_eq_some isMalformed with ⟨body, isTag, more⟩
    rcases Lexeme.tagAt_of_read isTag with ⟨left, isUnread, shape⟩
    rw [isUnread, List.drop_left] at split
    subst split
    refine ⟨source ++ skipped, rest, by simp, by simp [isUnread], ?_⟩
    intro passed segments further
    rw [isUnread, List.drop_left] at later
    rw [← List.append_assoc] at further
    rcases later (passed ++ source) segments further with ⟨sources, segmented⟩
    have marksTags := (Bool.and_eq_true_iff.1 (Lexeme.opens_of_read isTag)).1
    rw [isUnread]
    exact ⟨source :: sources, .malformed marksTags shape more segmented⟩
  | case3 before unread nonempty wellFormed =>
    cases passes
    exact ⟨[], unread, by simp, rfl,
      fun passed segments further => ⟨[], by simpa using further⟩⟩

/-- The token of a piece at the head of a text is a segment. -/
theorem of_read
    {token : Token}
    (nonempty : token.source ≠ [])
    (made :
      (Lexeme.read delimiters (token.source ++ rest)).piece
          (token.source ++ rest) =
        .ok token.piece)
    (wellFormed :
      (Lexeme.read delimiters (token.source ++ rest)).malformed? = none)
    (placed : token.PlacedIn buffer passed)
    (further :
      Segmented buffer (Reader.delimitersAfter delimiters token)
        (passed ++ token.source) rest segments) :
    Segmented buffer delimiters passed (token.source ++ rest)
      (.token token :: segments) := by
  rcases Lexeme.piece_eq_ok made with
    ⟨isPlain, isText, installs⟩ | ⟨body, isTag⟩
  · rcases Lexeme.read_eq_plain isPlain with ⟨closed, isSource⟩
    have source :
        token.source =
          Lexeme.readPlain delimiters.opening (token.source ++ rest) :=
      isSource
    rcases Lexeme.readPlain_ends delimiters.opening (token.source ++ rest) with
      ⟨left, isUnread, ends, absent⟩
    rw [← source] at isUnread absent
    rcases List.append_cancel_left isUnread with rfl
    have unchanged : Reader.delimitersAfter delimiters token = delimiters := by
      have nothing : token.delimiters = none := installs
      rw [Reader.delimitersAfter, nothing]
      rfl
    rw [unchanged] at further
    refine .text isText nonempty ?_ ends placed further
    intro marksTags
    rcases Delimiters.canMarkTags_iff.1 marksTags with ⟨opening, closing⟩
    apply absent opening
    intro starts
    rw [Lexeme.opens_iff.2 ⟨opening, closing, starts⟩] at closed
    cases closed
  · have isRead : Lexeme.read delimiters (token.source ++ rest) =
        .tag token.kind token.source body := isTag
    rcases Lexeme.tagAt_of_read isRead with ⟨left, isUnread, shape⟩
    rcases List.append_cancel_left isUnread with rfl
    have marksTags := (Bool.and_eq_true_iff.1 (Lexeme.opens_of_read isRead)).1
    rw [isRead] at made wellFormed
    refine .tag marksTags shape made ?_ placed further
    intro isImplicit
    rw [isImplicit, Lexeme.malformed?] at wellFormed
    split at wellFormed
    · rename_i isDot
      exact isDot
    · cases wellFormed

/--
The segments of a token that a scan finds: malformed tags, and then the token.
-/
theorem of_scan
    {token : Token}
    (result : scan delimiters unread = .found skipped token.piece rest)
    (placed : token.PlacedIn buffer (passed ++ skipped))
    (further :
      Segmented buffer (Reader.delimitersAfter delimiters token)
        (passed ++ (skipped ++ token.source)) rest segments) :
    ∃ sources : List Text,
      Segmented buffer delimiters passed unread
        (sources.map .malformed ++ .token token :: segments) := by
  rcases scan_eq_found result with ⟨parts, nonempty⟩
  rcases read_of_scan result with ⟨found, wellFormed, made⟩
  rcases of_next buffer found with ⟨_, left, rfl, split, later⟩
  rcases List.append_cancel_left (split.symm.trans parts) with rfl
  rw [← List.append_assoc] at further
  exact later passed _ (of_read nonempty made wellFormed placed further)

/-- When nothing is found, all that is left are malformed tags. -/
theorem of_finished
    (result : scan delimiters unread = .finished skipped)
    (passed : Text) :
    ∃ sources : List Text,
      Segmented buffer delimiters passed unread (sources.map .malformed) := by
  rcases of_next buffer (next_of_scan_finished result) with
    ⟨_, rest, rfl, split, later⟩
  have nothing : rest = [] := by simpa using split
  subst nothing
  rcases later passed [] (.done delimiters _) with ⟨sources, segmented⟩
  exact ⟨sources, by simpa using segmented⟩

end Segmented

namespace Reader

variable {reader after : Reader} {tokens : List Token}

theorem filterMap_malformed (sources : List Text) :
    (sources.map Segment.malformed).filterMap Segment.token? = [] := by
  induction sources with
  | nil => rfl
  | cons source sources ih => exact ih

/--
The marks of a token stay where they are while the tokens behind it are
streamed.
-/
theorem Streams.placed
    {between : Reader}
    {token : Token}
    (read : reader.next delimiters = (.ok (some token), between))
    (further :
      Streams between (delimitersAfter delimiters token) tokens none after)
    (standing : reader.At passed unread)
    (keeps :
      ∀ mark position,
        mark ≠ reader.cursor → after.buffer.livePosition? mark = some position →
        buffer.position? mark = some position) :
    ∃ skipped rest,
      scan delimiters unread = .found skipped token.piece rest ∧
      between.At (passed ++ (skipped ++ token.source)) rest ∧
      between.cursor = reader.cursor ∧
      token.PlacedIn buffer (passed ++ skipped) := by
  rcases took_of_next standing read with ⟨skipped, rest, isScan, took⟩
  have stays := (further.ends rfl took.standing).2
  have kept (mark : Mark) (own : mark ∈ token.marks) (position : Nat)
      (live : between.buffer.livePosition? mark = some position) :
      buffer.position? mark = some position := by
    have other : mark ≠ reader.cursor := by
      rintro rfl
      exact took.cursor_notMem standing own
    apply keeps mark position other
    apply stays mark position _ live
    rwa [took.cursor_eq]
  refine ⟨skipped, rest, isScan, took.standing, took.cursor_eq, ?_, ?_⟩
  · exact kept _ (by simp [Token.marks]) _ took.live_start
  · apply kept _ (by simp [Token.marks])
    rw [took.live_stop, List.append_assoc]
    rfl

/-- What is streamed to the end of a text cuts it into segments. -/
theorem Streams.segmented
    {ending : Option RenderError}
    (streams : Streams reader delimiters tokens ending after)
    (noError : ending = none)
    (standing : reader.At passed unread)
    (keeps :
      ∀ mark position,
        mark ≠ reader.cursor → after.buffer.livePosition? mark = some position →
        buffer.position? mark = some position) :
    ∃ segments,
      Segmented buffer delimiters passed unread segments ∧
      segments.filterMap Segment.token? = tokens := by
  induction streams generalizing passed unread with
  | finished read =>
    rcases ended_of_next standing read with ⟨isScan, -⟩
    rcases Segmented.of_finished isScan passed with ⟨sources, segmented⟩
    exact ⟨_, segmented, filterMap_malformed sources⟩
  | failed => cases noError
  | @token reader between after delimiters token tokens ending read further
      ih =>
    subst noError
    rcases Streams.placed read further standing keeps with
      ⟨skipped, rest, isScan, behind, sameCursor, placed⟩
    rw [← sameCursor] at keeps
    rcases ih rfl behind keeps with ⟨segments, segmented, rfl⟩
    rcases Segmented.of_scan isScan placed segmented with ⟨sources, whole⟩
    refine ⟨_, whole, ?_⟩
    rw [List.filterMap_append, filterMap_malformed]
    rfl

/-! ## Every call moves on -/

/--
A call goes past the malformed tags that it passes over, and past the token that
it gives.
-/
theorem next_passes
    (standing : reader.At passed unread)
    (delimiters : Delimiters) :
    ∃ more rest,
      unread = (Lexeme.next delimiters [] unread).1 ++ (more ++ rest) ∧
      (reader.next delimiters).2.At
        (passed ++ ((Lexeme.next delimiters [] unread).1 ++ more)) rest ∧
      ∀ token, (reader.next delimiters).1 = .ok (some token) → more ≠ [] := by
  have settled := standing.settle (.mark reader.cursor)
  rw [next_eq standing]
  cases found : Lexeme.next delimiters [] unread with
  | mk skipped lexeme =>
    cases lexeme with
    | none =>
      have all : unread = skipped ++ [] := by
        simpa using (Lexeme.next_eq_none found).symm
      rw [all] at settled
      refine ⟨[], [], all, ?_, fun _ given => by cases given⟩
      rw [List.append_nil]
      exact settled.consume passed.getLast?
    | some lexeme =>
      rcases Lexeme.next_eq_some found with
        ⟨_, left, rfl, rfl, nonempty, isRead, -⟩
      dsimp only
      have skipping := settled.consume passed.getLast?
      rw [List.drop_left, ← List.getLast?_append]
      cases made : lexeme.piece left with
      | error fault =>
        rcases skipping.goesPast_take isRead made with ⟨rest, rfl, -, goes⟩
        refine ⟨fault.passedText, rest, rfl, ?_, ?_⟩
        · rw [← List.append_assoc]
          exact goes.standing
        · intro token given
          rw [Reader.take_of_fault made] at given
          cases given
      | ok piece =>
        rw [← isRead] at made
        rcases Lexeme.piece_isPrefix nonempty made with
          ⟨⟨rest, rfl⟩, sourceNonempty⟩
        rw [isRead] at made
        have taken := skipping.took.standing
        refine ⟨piece.source, rest, rfl, ?_, fun _ _ => sourceNonempty⟩
        rw [take_of_piece made]
        simpa only [List.nil_append, List.append_assoc] using taken

/--
A call that gives a token or passes over a malformed tag moves the cursor on.
-/
theorem position_lt_of_next
    (standing : reader.At passed unread)
    {delimiters : Delimiters}
    (active :
      (∃ token, (reader.next delimiters).1 = .ok (some token)) ∨
      (Lexeme.next delimiters [] unread).1 ≠ []) :
    reader.position < (reader.next delimiters).2.position := by
  rcases next_passes standing delimiters with ⟨more, rest, -, after, gives⟩
  rw [standing.position_eq, after.position_eq, Text.byteSize_append]
  have nonempty : (Lexeme.next delimiters [] unread).1 ++ more ≠ [] := by
    rcases active with ⟨token, given⟩ | skips
    · simp [gives token given]
    · simp [skips]
  have positive : ((Lexeme.next delimiters [] unread).1 ++ more).byteSize ≠ 0 :=
    fun zero => nonempty (Text.byteSize_eq_zero.1 zero)
  omega

/-! ## All tokens of a template -/

/--
The tokens of a template are streamed, and their marks are where the stream left
them.
-/
theorem streams_of_tokens
    {template : Text}
    (read : (ofText template).tokens delimiters = (.ok tokens, after)) :
    ∃ left,
      Streams (ofText template) delimiters tokens none left ∧
      after.buffer.text = template ∧
      ∀ mark position,
        mark ≠ (ofText template).cursor →
        left.buffer.livePosition? mark = some position →
        after.buffer.position? mark = some position := by
  have standing := at_ofText template
  rcases (standsAt_ofText template).streams delimiters with ⟨left, streams⟩
  rw [tokens_of_streams streams] at read
  generalize lexed delimiters (Place.start template) = answer at streams read
  rcases answer with ⟨streamed, _ | error⟩
  · simp only [collected, Prod.mk.injEq, Except.ok.injEq] at read
    rcases read with ⟨rfl, rfl⟩
    rcases streams.ends rfl standing with ⟨ended, -⟩
    refine ⟨left, streams, by simpa using ended.text_eq, ?_⟩
    intro mark position other live
    apply Buffer.position?_of_livePosition?
    rwa [Buffer.livePosition?_setPosition ended.linked, if_neg other]
  · cases read

/-- When all tokens of a template are collected, they cut it into segments. -/
theorem segmented_of_tokens
    {template : Text}
    (read : (ofText template).tokens delimiters = (.ok tokens, after)) :
    after.buffer.text = template ∧
    ∃ segments,
      Segmented after.buffer delimiters [] template segments ∧
      segments.filterMap Segment.token? = tokens := by
  rcases streams_of_tokens read with ⟨left, streams, whole, keeps⟩
  exact ⟨whole, streams.segmented rfl (at_ofText template) keeps⟩

/--
When all tokens of a template are collected, the template is cut into segments:
its tokens and the malformed tags between them.  No token is empty, and each
stands between its marks.  Every call that gives a token or passes over a
malformed tag moves the cursor on, so every stream ends, and its tokens or its
error are those that are collected.
-/
theorem tokens_segment
    (template : Text)
    (delimiters : Delimiters) :
    (∀ tokens after,
      (ofText template).tokens delimiters = (.ok tokens, after) →
      ∃ segments,
        Segmented after.buffer delimiters [] template segments ∧
        segments.filterMap Segment.token? = tokens ∧
        segments.flatMap Segment.source = template ∧
        ∀ token ∈ tokens,
          token.source ≠ [] ∧
          after.buffer.substring (.mark token.start) (.mark token.stop) =
            token.source) ∧
    (∀ (reader : Reader) (passed unread : Text) (pair : Delimiters),
      reader.At passed unread →
      ((∃ token, (reader.next pair).1 = .ok (some token)) ∨
        (Lexeme.next pair [] unread).1 ≠ []) →
      reader.position < (reader.next pair).2.position) ∧
    ∃ tokens ending after,
      Streams (ofText template) delimiters tokens ending after ∧
      ((ofText template).tokens delimiters).1 = collected tokens ending := by
  refine ⟨?_,
    fun reader passed unread pair standing => position_lt_of_next standing, ?_⟩
  · intro tokens after read
    rcases segmented_of_tokens read with ⟨whole, segments, segmented, rfl⟩
    exact ⟨segments, segmented, rfl, segmented.flatMap_source,
      segmented.substring_eq whole⟩
  · rcases (standsAt_ofText template).streams delimiters with ⟨after, streams⟩
    exact ⟨_, _, after, streams, congrArg Prod.fst (tokens_of_streams streams)⟩

/--
Delimiters that hold a modifier and overlap with one another, and two malformed
tags.
-/
theorem tokens_segment_overlapping :
    let template := "é{{{a}}}{{.b}}{{=|  #|=}}|###| ||/x#||.y#|/x#|.#|é".toList
    ∃ tokens after,
      (ofText template).tokens .standard = (.ok tokens, after) ∧
      tokens.length = 9 ∧
      ∃ segments,
        Segmented after.buffer .standard [] template segments ∧
        segments.filterMap Segment.token? = tokens ∧
        segments.flatMap Segment.source = template ∧
        ∀ token ∈ tokens,
          token.source ≠ [] ∧
          after.buffer.substring (.mark token.start) (.mark token.stop) =
            token.source := by
  intro template
  have counted :
      ((ofText template).tokens .standard).1.toOption.map List.length =
        some 9 := by
    decide +kernel
  cases read : (ofText template).tokens .standard with
  | mk answer after =>
    rw [read] at counted
    cases answer with
    | error error => cases counted
    | ok tokens =>
      have nine : tokens.length = 9 := Option.some.inj counted
      exact ⟨tokens, after, rfl, nine,
        (tokens_segment template .standard).1 tokens after read⟩

end Reader

end Mustache
