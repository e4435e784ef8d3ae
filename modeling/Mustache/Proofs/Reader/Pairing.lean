import Mustache.Proofs.Scan.Node

/-!
# Reading a node is scanning for a block

Every token that `findCloser` reads makes two marks.  The marks of a token that
stands alone are released at once, those of an inner opener when its own close
tag is met.  The invariant is that the marks still to be released are those of
the pending openers, so none is left when the close tag that was looked for is
found (`Closed`).
-/

namespace Mustache

/-- The two marks of a token. -/
def Token.marks (token : Token) : List Mark :=
  [token.start, token.stop]

theorem Text.length_le_byteSize (text : Text) :
    text.length ≤ text.byteSize := by
  induction text with
  | nil => exact Nat.le_refl 0
  | cons character rest ih =>
    have := character.utf8Size_pos
    simp only [List.length_cons, byteSize_cons]
    omega

namespace Buffer

theorem livePosition?_eq_none_of_fresh
    {buffer : Buffer}
    {mark : Mark}
    (fresh : buffer.slots.size ≤ mark.slot) :
    buffer.livePosition? mark = none := by
  cases live : buffer.livePosition? mark with
  | none => rfl
  | some position =>
    have := slot_lt_of_livePosition? live
    omega

@[simp]
theorem text_releaseToken
    (buffer : Buffer)
    (token : Token) :
    (token.release buffer).text = buffer.text := by
  simp [Token.release]

@[simp]
theorem size_slots_releaseToken
    (buffer : Buffer)
    (token : Token) :
    (token.release buffer).slots.size = buffer.slots.size := by
  simp [Token.release]

theorem linked_releaseToken
    {buffer : Buffer}
    (linked : buffer.Linked)
    (token : Token) :
    (token.release buffer).Linked := by
  unfold Token.release
  exact linked_release (linked_release linked token.start) token.stop

theorem livePosition?_releaseToken
    {buffer : Buffer}
    (linked : buffer.Linked)
    (token : Token)
    (mark : Mark) :
    (token.release buffer).livePosition? mark =
      if mark ∈ token.marks then none else buffer.livePosition? mark := by
  unfold Token.release
  rw [livePosition?_release (linked_release linked token.start),
    livePosition?_release linked]
  simp only [Token.marks, List.mem_cons, List.not_mem_nil, or_false]
  by_cases isStop : mark = token.stop
  · simp [isStop]
  · simp [isStop]

end Buffer

namespace Reader

variable
    {reader between after : Reader}
    {passed unread skipped body rest : Text}
    {piece closer : Piece}
    {token : Token}
    {delimiters : Delimiters}

theorem At.release
    (standing : reader.At passed unread)
    (token : Token)
    (other : reader.cursor ∉ token.marks) :
    (reader.release token).At passed unread where
  text_eq := by
    rw [← standing.text_eq]
    exact Buffer.text_releaseToken ..
  linked := Buffer.linked_releaseToken standing.linked token
  cursor_eq := by
    have live :=
      Buffer.livePosition?_releaseToken standing.linked token reader.cursor
    rw [if_neg other, standing.cursor_eq] at live
    exact live

theorem livePosition?_release
    (standing : reader.At passed unread)
    (token : Token)
    (mark : Mark) :
    (reader.release token).buffer.livePosition? mark =
      if mark ∈ token.marks then none else reader.buffer.livePosition? mark :=
  Buffer.livePosition?_releaseToken standing.linked token mark

theorem Took.kind_eq
    (took : Took reader after passed skipped piece rest token) :
    token.kind = piece.kind :=
  congrArg Piece.kind took.piece_eq

theorem Took.name_eq
    (took : Took reader after passed skipped piece rest token) :
    token.name = piece.name :=
  congrArg Piece.name took.piece_eq

theorem Took.source_eq
    (took : Took reader after passed skipped piece rest token) :
    token.source = piece.source :=
  congrArg Piece.source took.piece_eq

theorem Took.delimitersAfter_eq
    (took : Took reader after passed skipped piece rest token) :
    delimitersAfter delimiters token = piece.delimitersAfter delimiters := by
  rw [← took.piece_eq]
  rfl

/-- The marks of a token that was read are new. -/
theorem Took.fresh
    (took : Took reader after passed skipped piece rest token)
    {mark : Mark}
    (own : mark ∈ token.marks) :
    reader.buffer.slots.size ≤ mark.slot := by
  simp only [Token.marks, took.start_eq, took.stop_eq, List.mem_cons,
    List.not_mem_nil, or_false] at own
  rcases own with rfl | rfl
  · exact Nat.le_refl _
  · exact Nat.le_succ _

theorem Took.cursor_notMem
    (standing : reader.At passed unread)
    (took : Took reader after passed skipped piece rest token) :
    reader.cursor ∉ token.marks := by
  intro own
  have known := Buffer.slot_lt_of_livePosition? standing.cursor_eq
  have fresh := took.fresh own
  omega

/-- The cursor is not among them after the token was read, either. -/
theorem Took.after_notMem
    (standing : reader.At passed unread)
    (took : Took reader after passed skipped piece rest token) :
    after.cursor ∉ token.marks := by
  rw [took.cursor_eq]
  exact took.cursor_notMem standing

/-- What reading a token does to the marks that are not its own. -/
theorem Took.live_of_notMem
    (took : Took reader after passed skipped piece rest token)
    {mark : Mark}
    (notCursor : mark ≠ reader.cursor)
    (other : mark ∉ token.marks) :
    after.buffer.livePosition? mark = reader.buffer.livePosition? mark := by
  simp only [Token.marks, List.mem_cons, List.not_mem_nil, or_false, not_or]
    at other
  rw [took.live_eq, if_neg other.2, if_neg other.1, if_neg notCursor]

/--
How reading up to a close tag changes a reader, where its token is, and that the
given marks were released on the way.
-/
structure Closed
    (reader after : Reader)
    (passed body : Text)
    (piece : Piece)
    (rest : Text)
    (released : List Mark)
    (token : Token) : Prop where
  piece_eq : token.piece = piece
  standing : after.At (passed ++ (body ++ piece.source)) rest
  line_after :
    after.line =
      reader.line + (body ++ piece.source).lineBreaksAfter passed.getLast?
  cursor_eq : after.cursor = reader.cursor
  start_fresh : reader.buffer.slots.size ≤ token.start.slot
  stop_eq : token.stop.slot = token.start.slot + 1
  live_eq :
    ∀ mark,
      after.buffer.livePosition? mark =
        if mark = token.stop then
          some (passed ++ (body ++ piece.source)).byteSize
        else
          if mark = token.start then
            some (passed ++ body).byteSize
          else
            if mark = reader.cursor then
              some (passed ++ (body ++ piece.source)).byteSize
            else
              if mark ∈ released then none else reader.buffer.livePosition? mark

/--
Reading up to the close tag leaves the marks of the opener where they are.
-/
theorem Closed.live_of_opener
    {closerToken : Token}
    {left : Text}
    (standing : reader.At passed unread)
    (took : Took reader between passed skipped piece left token)
    {start : Text}
    (closed : Closed between after start body closer rest [] closerToken)
    {mark : Mark}
    (own : mark ∈ token.marks) :
    after.buffer.livePosition? mark = between.buffer.livePosition? mark := by
  have fresh := closed.start_fresh
  have stop := closed.stop_eq
  rw [took.slots_eq] at fresh
  have old : mark.slot < reader.buffer.slots.size + 2 := by
    simp only [Token.marks, took.start_eq, took.stop_eq, List.mem_cons,
      List.not_mem_nil, or_false] at own
    rcases own with rfl | rfl <;> simp
  have notCursor : mark ≠ between.cursor := by
    rintro rfl
    exact took.after_notMem standing own
  rw [closed.live_eq, if_neg (by rintro rfl; omega),
    if_neg (by rintro rfl; omega), if_neg notCursor, if_neg List.not_mem_nil]

/-- Where the opener of a section ends, once the section was read. -/
theorem Closed.live_opener_stop
    {closerToken : Token}
    {left : Text}
    (standing : reader.At passed unread)
    (took : Took reader between passed skipped piece left token)
    {start : Text}
    (closed : Closed between after start body closer rest [] closerToken) :
    after.buffer.livePosition? token.stop =
      some (passed ++ (skipped ++ piece.source)).byteSize := by
  rw [closed.live_of_opener standing took (by simp [Token.marks]), took.live_eq,
    if_pos rfl]

/-- The close tag that was read starts behind the body. -/
theorem Closed.live_start
    {closerToken : Token}
    {released : List Mark}
    (closed :
      Closed reader after passed body closer rest released closerToken) :
    after.buffer.livePosition? closerToken.start =
      some (passed ++ body).byteSize := by
  have stop := closed.stop_eq
  rw [closed.live_eq, if_neg, if_pos rfl]
  intro same
  rw [← same] at stop
  omega

theorem Took.closed (took : Took reader after passed skipped piece rest token) :
    Closed reader after passed skipped piece rest [] token where
  piece_eq := took.piece_eq
  standing := took.standing
  line_after := took.line_after
  cursor_eq := took.cursor_eq
  start_fresh := by simp [took.start_eq]
  stop_eq := by simp [took.start_eq, took.stop_eq]
  live_eq := by simpa using took.live_eq

theorem Took.live_start
    (took : Took reader after passed skipped piece rest token) :
    after.buffer.livePosition? token.start =
      some (passed ++ skipped).byteSize :=
  took.closed.live_start

theorem Took.live_stop
    (took : Took reader after passed skipped piece rest token) :
    after.buffer.livePosition? token.stop =
      some (passed ++ (skipped ++ piece.source)).byteSize := by
  rw [took.live_eq, if_pos rfl]

/--
Reading one more token before the close tag.  Its marks and those that waited
before are released either at once or later.
-/
theorem Closed.of_read
    {next : Reader}
    {closerToken : Token}
    {now later before : List Mark}
    (took : Took reader between passed skipped piece rest token)
    (line : next.line = between.line)
    (cursor : next.cursor = between.cursor)
    (slots : next.buffer.slots.size = between.buffer.slots.size)
    (live :
      ∀ mark,
        next.buffer.livePosition? mark =
          if mark ∈ now then none else between.buffer.livePosition? mark)
    (accounted :
      ∀ mark, mark ∈ later ∨ mark ∈ now ↔ mark ∈ before ∨ mark ∈ token.marks)
    {left : Text}
    (closed :
      Closed next after (passed ++ (skipped ++ piece.source)) body closer left
        later closerToken) :
    Closed reader after passed (skipped ++ (piece.source ++ body)) closer left
      before closerToken where
  piece_eq := closed.piece_eq
  standing := by
    have standing := closed.standing
    simp only [List.append_assoc] at standing ⊢
    exact standing
  line_after := by
    rw [closed.line_after, line, took.line_after, Nat.add_assoc,
      List.getLast?_append, ← Text.lineBreaksAfter_append]
    simp only [List.append_assoc]
  cursor_eq := by rw [closed.cursor_eq, cursor, took.cursor_eq]
  start_fresh := by
    have fresh := closed.start_fresh
    rw [slots, took.slots_eq] at fresh
    omega
  stop_eq := closed.stop_eq
  live_eq := by
    intro mark
    have own : mark ∈ token.marks → reader.buffer.livePosition? mark = none :=
      fun own => Buffer.livePosition?_eq_none_of_fresh (took.fresh own)
    have other : mark ≠ reader.cursor → mark ∉ token.marks →
        between.buffer.livePosition? mark = reader.buffer.livePosition? mark :=
      took.live_of_notMem
    rw [closed.live_eq, cursor, took.cursor_eq, live]
    simp only [List.append_assoc]
    have known := accounted mark
    grind

/-! ## Finding the close tag -/

theorem findCloser_of_error
    {opener : Token}
    {error : RenderError}
    (read : reader.next delimiters = (.error error, after))
    (budget : Nat)
    (pending : List Token) :
    findCloser opener (budget + 1) reader delimiters pending =
      (.error error, after) := by
  rw [findCloser, read]

theorem findCloser_of_end
    {opener : Token}
    (read : reader.next delimiters = (.ok none, after))
    (budget : Nat)
    (pending : List Token) :
    findCloser opener (budget + 1) reader delimiters pending =
      (.error (.unclosedSection opener.source opener.line), after) := by
  rw [findCloser, read]

theorem findCloser_of_opener
    (opener : Token)
    (opens : token.kind.opensSection = true)
    (read : reader.next delimiters = (.ok (some token), after))
    (budget : Nat)
    (pending : List Token) :
    findCloser opener (budget + 1) reader delimiters pending =
      findCloser opener budget after delimiters (token :: pending) := by
  rw [findCloser, read]
  cases kind : token.kind <;> simp_all [TokenKind.opensSection]

theorem findCloser_of_closer
    (opener : Token)
    (closes : token.kind = .closer)
    (read : reader.next delimiters = (.ok (some token), after))
    (budget : Nat)
    (pending : List Token) :
    findCloser opener (budget + 1) reader delimiters pending =
      match pending with
      | inner :: outer =>
        if inner.name = token.name then
          findCloser opener budget ((after.release inner).release token)
            delimiters outer
        else
          (.error (.unbalancedSection token.source token.line), after)
      | [] =>
        if token.name = opener.name then
          (.ok (token, delimiters), after)
        else
          (.error (.unbalancedSection token.source token.line), after) := by
  rw [findCloser, read]
  cases pending <;> simp only [closes]

theorem findCloser_of_other
    (opener : Token)
    (notOpener : ¬token.kind.opensSection = true)
    (notCloser : token.kind ≠ .closer)
    (read : reader.next delimiters = (.ok (some token), after))
    (budget : Nat)
    (pending : List Token) :
    findCloser opener (budget + 1) reader delimiters pending =
      findCloser opener budget (after.release token)
        (delimitersAfter delimiters token) pending := by
  rw [findCloser, read]
  cases kind : token.kind <;> simp_all [TokenKind.opensSection]

/-- The marks that wait for the close tags of inner sections. -/
def pendingMarks (tokens : List Token) : List Mark :=
  tokens.flatMap Token.marks

/--
A reader on its way from an opener to the close tag.  `start` is what was passed
before the malformed tags `before` the opener, `line` the line at that place,
and `opened` what was read since.
-/
structure Searching
    (reader : Reader)
    (start before : Text)
    (opener : Piece)
    (opened unread : Text)
    (line : Nat) : Prop where
  standing : reader.At (start ++ (before ++ (opener.source ++ opened))) unread
  line_eq : reader.line =
    line + (before ++ (opener.source ++ opened)).lineBreaksAfter start.getLast?

variable {start before opened : Text} {opener : Piece} {line : Nat}

theorem Searching.read
    (searching : Searching reader start before opener opened unread line)
    (took :
      Took reader after (start ++ (before ++ (opener.source ++ opened))) skipped
        piece rest token) :
    Searching after start before opener (opened ++ (skipped ++ piece.source))
      rest line where
  standing := by simpa only [List.append_assoc] using took.standing
  line_eq := by
    have lines := Text.lineBreaksAfter_append start.getLast?
      (before ++ (opener.source ++ opened)) (skipped ++ piece.source)
    rw [took.line_after, searching.line_eq, List.getLast?_append, Nat.add_assoc,
      ← lines]
    simp only [List.append_assoc]

theorem Searching.release
    (searching : Searching reader start before opener opened unread line)
    (token : Token)
    (other : reader.cursor ∉ token.marks) :
    Searching (reader.release token) start before opener opened unread
      line where
  standing := searching.standing.release token other
  line_eq := searching.line_eq

/-- The line of a fault that is found on the way. -/
theorem Searching.line_skipped
    (searching : Searching reader start before opener opened unread line)
    (skipped : Text) :
    reader.line +
        skipped.lineBreaksAfter
          (start ++ (before ++ (opener.source ++ opened))).getLast? =
      line +
        (before ++ (opener.source ++ (opened ++ skipped))).lineBreaksAfter
          start.getLast? := by
  have lines := Text.lineBreaksAfter_append start.getLast?
    (before ++ (opener.source ++ opened)) skipped
  rw [searching.line_eq, List.getLast?_append, Nat.add_assoc, ← lines]
  simp only [List.append_assoc]

/-- What `findCloser` answers when the unread text holds the given scan. -/
def ClosesAs
    (openerToken : Token)
    (budget : Nat)
    (reader : Reader)
    (delimiters : Delimiters)
    (tokens : List Token)
    (start passed opened : Text)
    (line : Nat) : CloserScan → Prop
  | .faulty before fault =>
    ∃ after,
      findCloser openerToken budget reader delimiters tokens =
        (.error (fault.onLine (line + before.lineBreaksAfter start.getLast?)),
          after)
  | .found body closer final rest =>
    ∃ token after more, findCloser openerToken budget reader delimiters tokens =
        (.ok (token, final), after) ∧
      body = opened ++ more ∧
      Closed reader after passed more closer rest (pendingMarks tokens) token

/--
Reading one more token and going on, with its marks released at once or later.
-/
theorem ClosesAs.of_read
    {openerToken : Token}
    {next : Reader}
    {tokens left : List Token}
    {delimiters' : Delimiters}
    {budget : Nat}
    {result : CloserScan}
    (now : List Mark)
    (took : Took reader between passed skipped piece rest token)
    (same :
      findCloser openerToken (budget + 1) reader delimiters tokens =
        findCloser openerToken budget next delimiters' left)
    (line_eq : next.line = between.line)
    (cursor : next.cursor = between.cursor)
    (slots : next.buffer.slots.size = between.buffer.slots.size)
    (live :
      ∀ mark,
        next.buffer.livePosition? mark =
          if mark ∈ now then none else between.buffer.livePosition? mark)
    (accounted :
      ∀ mark,
        mark ∈ pendingMarks left ∨ mark ∈ now ↔
          mark ∈ pendingMarks tokens ∨ mark ∈ token.marks)
    (later :
      ClosesAs openerToken budget next delimiters' left start
        (passed ++ (skipped ++ piece.source))
        (opened ++ (skipped ++ piece.source)) line result) :
    ClosesAs openerToken (budget + 1) reader delimiters tokens start passed
      opened line result := by
  cases result with
  | faulty before fault =>
    rcases later with ⟨after, found⟩
    exact ⟨after, same.trans found⟩
  | found body closer final rest =>
    rcases later with ⟨closerToken, after, more, found, rfl, closed⟩
    refine ⟨closerToken, after, skipped ++ (piece.source ++ more),
      same.trans found, ?_, ?_⟩
    · simp only [List.append_assoc]
    · exact Closed.of_read took line_eq cursor slots live accounted closed

/-- The marks of both tags of an inner section are released. -/
theorem livePosition?_releasePair
    (standing : reader.At passed unread)
    {inner : Token}
    (other : reader.cursor ∉ inner.marks)
    (token : Token)
    (mark : Mark) :
    ((reader.release inner).release token).buffer.livePosition? mark =
      if mark ∈ inner.marks ++ token.marks then
        none
      else
        reader.buffer.livePosition? mark := by
  rw [livePosition?_release (standing.release inner other),
    livePosition?_release standing]
  simp only [List.mem_append]
  by_cases isOwn : mark ∈ token.marks <;> simp [isOwn]

section Steps

variable
    {openerToken : Token}
    {tokens : List Token}
    {budget : Nat}
    {result : CloserScan}

/-- Reading on after an inner opener, whose marks wait for its close tag. -/
theorem ClosesAs.of_opener
    (opens : piece.kind.opensSection = true)
    (read : reader.next delimiters = (.ok (some token), between))
    (took : Took reader between passed skipped piece rest token)
    (later :
      ClosesAs openerToken budget between delimiters (token :: tokens) start
        (passed ++ (skipped ++ piece.source))
        (opened ++ (skipped ++ piece.source)) line result) :
    ClosesAs openerToken (budget + 1) reader delimiters tokens start passed
      opened line result := by
  have opensToken : token.kind.opensSection = true := by rwa [took.kind_eq]
  have found := findCloser_of_opener openerToken opensToken read budget tokens
  apply ClosesAs.of_read [] took found rfl rfl rfl (by simp) _ later
  intro mark
  simp [pendingMarks, or_comm]

/-- Reading on after the close tag of the innermost pending section. -/
theorem ClosesAs.of_closer
    {inner : Token}
    (closes : piece.kind = .closer)
    (same : inner.name = piece.name)
    (read : reader.next delimiters = (.ok (some token), between))
    (took : Took reader between passed skipped piece rest token)
    (other : reader.cursor ∉ inner.marks)
    (later :
      ClosesAs openerToken budget ((between.release inner).release token)
        delimiters tokens start (passed ++ (skipped ++ piece.source))
        (opened ++ (skipped ++ piece.source)) line result) :
    ClosesAs openerToken (budget + 1) reader delimiters (inner :: tokens) start
      passed opened line result := by
  have notInner : between.cursor ∉ inner.marks := by rwa [took.cursor_eq]
  have found :=
    findCloser_of_closer openerToken (took.kind_eq.trans closes) read budget
      (inner :: tokens)
  simp only [same, took.name_eq, if_true] at found
  apply ClosesAs.of_read (inner.marks ++ token.marks) took found rfl rfl _
    (livePosition?_releasePair took.standing notInner token) _ later
  · simp [Reader.release, mapBuffer]
  · intro mark
    simp only [pendingMarks, List.flatMap_cons, List.mem_append]
    grind

/-- Reading on after a token that is neither, which is released at once. -/
theorem ClosesAs.of_other
    (notOpener : ¬piece.kind.opensSection = true)
    (notCloser : piece.kind ≠ .closer)
    (read : reader.next delimiters = (.ok (some token), between))
    (took : Took reader between passed skipped piece rest token)
    (later :
      ClosesAs openerToken budget (between.release token)
        (piece.delimitersAfter delimiters) tokens start
        (passed ++ (skipped ++ piece.source))
        (opened ++ (skipped ++ piece.source)) line result) :
    ClosesAs openerToken (budget + 1) reader delimiters tokens start passed
      opened line result := by
  have found :=
    findCloser_of_other openerToken (by rwa [took.kind_eq])
      (by rwa [took.kind_eq]) read budget tokens
  rw [took.delimitersAfter_eq] at found
  apply ClosesAs.of_read token.marks took found rfl rfl _
    (livePosition?_release took.standing token) (by simp) later
  simp [Reader.release, mapBuffer]

/-- A close tag with another name than the section it would close. -/
theorem ClosesAs.of_unbalanced
    (searching : Searching reader start before opener opened unread line)
    (took :
      Took reader between (start ++ (before ++ (opener.source ++ opened)))
        skipped piece rest token)
    (found :
      findCloser openerToken budget reader delimiters tokens =
        (.error (.unbalancedSection token.source token.line), between)) :
    ClosesAs openerToken budget reader delimiters tokens start passed opened
      line
      (.faulty (before ++ (opener.source ++ (opened ++ skipped)))
        (.unbalancedSection piece.source)) := by
  refine ⟨between, ?_⟩
  rw [found, took.source_eq, took.line_eq, searching.line_skipped]
  rfl

end Steps

/-- Looking for a close tag in a buffer is looking for it in the unread text. -/
theorem findCloser_spec
    {openerToken : Token}
    {pending : List Text}
    {tokens : List Token}
    (named : openerToken.name = opener.name)
    (source : openerToken.source = opener.source)
    (begun : openerToken.line = line + before.lineBreaksAfter start.getLast?)
    (searching : Searching reader start before opener opened unread line)
    (names : tokens.map Token.name = pending)
    (other : reader.cursor ∉ pendingMarks tokens)
    {budget : Nat}
    (enough : unread.length < budget) :
    ClosesAs openerToken budget reader delimiters tokens start
      (start ++ (before ++ (opener.source ++ opened))) opened line
      (scanCloser before opener delimiters pending opened unread) := by
  fun_induction scanCloser before opener delimiters pending opened unread
    generalizing reader tokens budget with
  | case1 delimiters pending opened unread skipped isScan =>
    rcases budget with _ | budget
    · cases enough
    rcases next_of_finished searching.standing isScan with ⟨after, read, -⟩
    refine ⟨after, ?_⟩
    rw [findCloser_of_end read, source, begun]
    rfl
  | case2 delimiters pending opened unread skipped fault isScan =>
    rcases budget with _ | budget
    · cases enough
    rcases next_of_faulty searching.standing isScan with ⟨after, read, -⟩
    refine ⟨after, ?_⟩
    rw [findCloser_of_error read, searching.line_skipped]
  | case3 delimiters pending opened unread skipped piece left isScan opens ih =>
    rcases budget with _ | budget
    · cases enough
    rcases next_of_found searching.standing isScan with
      ⟨token, between, read, took⟩
    have shorter := length_lt_of_scan isScan
    have fresh := took.cursor_notMem searching.standing
    have free : between.cursor ∉ pendingMarks (token :: tokens) := by
      simpa [took.cursor_eq, pendingMarks, fresh] using other
    have further :=
      ih (searching.read took) (by simp [names, took.name_eq]) free
        (by omega : left.length < budget)
    exact ClosesAs.of_opener opens read took
      (by simpa only [List.append_assoc] using further)
  | case4 delimiters opened unread skipped piece left isScan opens closes outer
      ih =>
    rcases budget with _ | budget
    · cases enough
    rcases next_of_found searching.standing isScan with
      ⟨token, between, read, took⟩
    have shorter := length_lt_of_scan isScan
    rcases tokens with _ | ⟨inner, tokens⟩
    · cases names
    · simp only [List.map_cons, List.cons.injEq] at names
      simp only [pendingMarks, List.flatMap_cons, List.mem_append, not_or]
        at other
      rcases other with ⟨notInner, notOuter⟩
      have notOwn := took.after_notMem searching.standing
      rw [← took.cursor_eq] at notOuter
      have released :=
        (searching.read took).release inner (by rwa [took.cursor_eq])
      have further := ih (released.release token notOwn) names.2 notOuter
        (by omega : left.length < budget)
      exact ClosesAs.of_closer closes names.1 read took notInner
        (by simpa only [List.append_assoc] using further)
  | case5 delimiters opened unread skipped piece left isScan opens closes inner
      outer same =>
    rcases budget with _ | budget
    · cases enough
    rcases next_of_found searching.standing isScan with
      ⟨token, between, read, took⟩
    rcases tokens with _ | ⟨innerToken, tokens⟩
    · cases names
    · simp only [List.map_cons, List.cons.injEq] at names
      apply ClosesAs.of_unbalanced searching took
      rw [findCloser_of_closer openerToken (took.kind_eq.trans closes) read]
      simp only [names.1, took.name_eq, if_neg same]
  | case6 delimiters opened unread skipped piece left isScan opens closes
      same =>
    rcases budget with _ | budget
    · cases enough
    rcases next_of_found searching.standing isScan with
      ⟨token, between, read, took⟩
    rcases List.map_eq_nil_iff.1 names with rfl
    refine ⟨token, between, skipped, ?_, rfl, took.closed⟩
    rw [findCloser_of_closer openerToken (took.kind_eq.trans closes) read]
    simp only [took.name_eq, named, if_pos same]
  | case7 delimiters opened unread skipped piece left isScan opens closes
      same =>
    rcases budget with _ | budget
    · cases enough
    rcases next_of_found searching.standing isScan with
      ⟨token, between, read, took⟩
    rcases List.map_eq_nil_iff.1 names with rfl
    apply ClosesAs.of_unbalanced searching took
    rw [findCloser_of_closer openerToken (took.kind_eq.trans closes) read]
    simp only [took.name_eq, named, if_neg same]
  | case8 delimiters pending opened unread skipped piece left isScan opens
      closes ih =>
    rcases budget with _ | budget
    · cases enough
    rcases next_of_found searching.standing isScan with
      ⟨token, between, read, took⟩
    have shorter := length_lt_of_scan isScan
    have notOwn := took.after_notMem searching.standing
    have free : between.cursor ∉ pendingMarks tokens := by rwa [took.cursor_eq]
    have further := ih ((searching.read took).release token notOwn) names free
      (by omega : left.length < budget)
    exact ClosesAs.of_other opens closes read took
      (by simpa only [List.append_assoc] using further)

/-! ## The next node -/

/--
How reading a block changes a reader, and where the tokens of its node are.
-/
inductive NodeTook
    (reader after : Reader)
    (passed skipped rest : Text) : Block → Node → Prop
  /-- A token that opens no section. -/
  | leaf
      {piece : Piece}
      {token : Token}
      (took : Took reader after passed skipped piece rest token) :
      NodeTook reader after passed skipped rest (.leaf piece) (.leaf token)
  /--
  A section: the opener was read, and then everything up to the close tag.
  -/
  | paired
      {opener closer : Piece}
      {body left : Text}
      {openerToken closerToken : Token}
      {between : Reader}
      (took : Took reader between passed skipped opener left openerToken)
      (closed :
        Closed between after (passed ++ (skipped ++ opener.source)) body closer
          rest [] closerToken) :
      NodeTook reader after passed skipped rest (.paired opener body closer)
        (.paired openerToken closerToken)

theorem NodeTook.standing
    {block : Block}
    {node : Node}
    (took : NodeTook reader after passed skipped rest block node) :
    after.At (passed ++ (skipped ++ block.source)) rest := by
  cases took with
  | leaf took => exact took.standing
  | paired took closed =>
    simpa only [Block.source, List.append_assoc] using closed.standing

/-- A node starts with the piece that its block starts with. -/
theorem NodeTook.head_eq
    {block : Block}
    {node : Node}
    (took : NodeTook reader after passed skipped rest block node) :
    node.head.piece = block.head := by
  cases took with
  | leaf took => exact took.piece_eq
  | paired took closed => exact took.piece_eq

theorem nextNode_of_finished
    (standing : reader.At passed unread)
    (result : scanNode delimiters unread = .finished) :
    ∃ after,
      reader.nextNode delimiters = (.ok none, delimiters, after) ∧
      after.buffer.text = reader.buffer.text := by
  rcases scan_of_scanNode_finished result with ⟨skipped, isScan⟩
  rcases next_of_finished standing isScan with ⟨after, read, goes, -⟩
  refine ⟨after, by rw [nextNode, read], ?_⟩
  rw [goes.standing.text_eq, standing.text_eq, List.append_nil]

/-- After an opener was read, the search for its close tag is at its start. -/
theorem Took.searching
    (took : Took reader after passed skipped piece rest token) :
    Searching after passed skipped piece [] rest reader.line where
  standing := by simpa only [List.append_nil] using took.standing
  line_eq := by simpa only [List.append_nil] using took.line_after

/-- What the search for a close tag answers right after the opener. -/
theorem Took.closesAs
    (took : Took reader after passed skipped piece rest token)
    (delimiters : Delimiters) :
    ClosesAs token (after.buffer.size + 1) after delimiters [] passed
      (passed ++ (skipped ++ piece.source)) [] reader.line
      (scanCloser skipped piece delimiters [] [] rest) := by
  have size :
      after.buffer.size =
        (passed ++ (skipped ++ piece.source) ++ rest).byteSize := by
    rw [← took.standing.text_eq, Buffer.byteSize_text]
  have length := Text.length_le_byteSize rest
  rw [Text.byteSize_append] at size
  have names : List.map Token.name [] = [] := rfl
  have enough : rest.length < after.buffer.size + 1 := by omega
  have start :
      ClosesAs token (after.buffer.size + 1) after delimiters [] passed
        (passed ++ (skipped ++ (piece.source ++ []))) [] reader.line
        (scanCloser skipped piece delimiters [] [] rest) :=
    findCloser_spec took.name_eq took.source_eq took.line_eq took.searching
      names List.not_mem_nil enough
  simpa only [List.append_nil] using start

theorem nextNode_of_opener
    (opens : token.kind.opensSection = true)
    (read : reader.next delimiters = (.ok (some token), after)) :
    reader.nextNode delimiters =
      match findCloser token (after.buffer.size + 1) after delimiters [] with
      | (.error error, reader) => (.error error, delimiters, reader)
      | (.ok (closer, delimiters), reader) =>
        (.ok (some (.paired token closer)), delimiters, reader) := by
  rw [nextNode, read]
  cases kind : token.kind <;> simp_all only [TokenKind.opensSection] <;>
    rcases findCloser token (after.buffer.size + 1) after delimiters [] with
      ⟨_ | ⟨closer, final⟩, left⟩ <;>
    simp_all

theorem nextNode_of_closer
    (closes : token.kind = .closer)
    (read : reader.next delimiters = (.ok (some token), after)) :
    reader.nextNode delimiters =
      (.error (.unbalancedSection token.source token.line), delimiters,
        after) := by
  rw [nextNode, read]
  simp only [closes]

theorem nextNode_of_other
    (notOpener : ¬token.kind.opensSection = true)
    (notCloser : token.kind ≠ .closer)
    (read : reader.next delimiters = (.ok (some token), after)) :
    reader.nextNode delimiters =
      (.ok (some (.leaf token)), delimitersAfter delimiters token, after) := by
  rw [nextNode, read]
  cases kind : token.kind <;> simp_all [TokenKind.opensSection]

theorem nextNode_of_faulty
    (standing : reader.At passed unread)
    {before : Text}
    {fault : Fault}
    (result : scanNode delimiters unread = .faulty before fault) :
    ∃ after,
      reader.nextNode delimiters =
        (.error
            (fault.onLine
              (reader.line + before.lineBreaksAfter passed.getLast?)),
          delimiters, after) := by
  rcases scanNode_faulty_cases result with
    isScan | ⟨skipped, opener, rest, isScan, opens, isFaulty⟩ |
    ⟨closer, rest, isScan, closes, rfl⟩
  · rcases next_of_faulty standing isScan with ⟨after, read, -⟩
    exact ⟨after, by rw [nextNode, read]⟩
  · rcases next_of_found standing isScan with ⟨token, between, read, took⟩
    have answer := took.closesAs delimiters
    rw [isFaulty] at answer
    rcases answer with ⟨after, found⟩
    refine ⟨after, ?_⟩
    rw [nextNode_of_opener (by rw [took.kind_eq]; exact opens) read, found]
  · rcases next_of_found standing isScan with ⟨token, between, read, took⟩
    refine ⟨between, ?_⟩
    rw [nextNode_of_closer (by rw [took.kind_eq]; exact closes) read,
      took.source_eq, took.line_eq]
    rfl

/-- What a reader finds for a node is what a scan of the unread text finds. -/
theorem nextNode_of_found
    (standing : reader.At passed unread)
    {block : Block}
    {final : Delimiters}
    (result : scanNode delimiters unread = .found skipped block final rest) :
    ∃ node after,
      reader.nextNode delimiters = (.ok (some node), final, after) ∧
      NodeTook reader after passed skipped rest block node := by
  cases block with
  | leaf piece =>
    rcases scanNode_eq_leaf result with ⟨isScan, notOpener, notCloser, rfl⟩
    rcases next_of_found standing isScan with ⟨token, after, read, took⟩
    refine ⟨.leaf token, after, ?_, .leaf took⟩
    rw [nextNode_of_other (by rwa [took.kind_eq]) (by rwa [took.kind_eq]) read,
      took.delimitersAfter_eq]
  | paired opener body closer =>
    rcases closer_of_scanNode result with ⟨left, isScan, opens, isCloserScan⟩
    rcases next_of_found standing isScan with ⟨token, between, read, took⟩
    have answer := took.closesAs delimiters
    rw [isCloserScan] at answer
    rcases answer with ⟨closerToken, after, more, found, rfl, closed⟩
    refine ⟨.paired token closerToken, after, ?_, .paired took closed⟩
    rw [nextNode_of_opener (by rw [took.kind_eq]; exact opens) read, found]

/-- A node that was read is one that a scan of the unread text finds. -/
theorem found_of_nextNode
    (standing : reader.At passed unread)
    {final : Delimiters}
    {node : Node}
    (read : reader.nextNode delimiters = (.ok (some node), final, after)) :
    ∃ skipped block rest,
      scanNode delimiters unread = .found skipped block final rest ∧
      NodeTook reader after passed skipped rest block node := by
  cases result : scanNode delimiters unread with
  | finished =>
    rcases nextNode_of_finished standing result with ⟨other, nothing, -⟩
    cases read.symm.trans nothing
  | faulty before fault =>
    rcases nextNode_of_faulty standing result with ⟨other, failed⟩
    cases read.symm.trans failed
  | found skipped block final' rest =>
    rcases nextNode_of_found standing result with ⟨other, after', isNext, took⟩
    cases read.symm.trans isNext
    exact ⟨skipped, block, rest, rfl, took⟩

end Reader

end Mustache
