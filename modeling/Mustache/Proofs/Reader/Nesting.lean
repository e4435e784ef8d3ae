import Mustache.Proofs.Reader.Stream
import Mustache.Proofs.Token.Nesting

/-!
# Nodes of well-nested templates

A reader of nodes accepts a template when its tokens can be streamed to the end
and are well-nested, and it gives the nodes of their arrangement
(`validate_eq_arranges`).  Any other template is refused with the error of its
first offence.

The reader looks for the close tag of one section at a time, with a stack of the
sections within it.  The invariant is that this stack, with the opener of that
section at its end, is the stack of open sections of the tokens read so far
(`SearchEnds`).
-/

namespace Mustache

namespace Reader

variable
    {reader after : Reader}
    {place : Place}
    {delimiters : Delimiters}
    {opener token : Token}

/--
How the search for the close tag of a section ends when a reader starts at a
place.
-/
inductive SearchEnds
    (opener : Token)
    (pending : List Token)
    (delimiters : Delimiters)
    (place : Place)
    (reader : Reader) : Except RenderError (Token × Delimiters) × Reader → Prop
  /--
  The tokens report an error while the section and those within it are open.
  -/
  | failed
      {error : RenderError}
      {after : Reader}
      (reports :
        verdict (pending ++ [opener]) (lexed delimiters place).1
            (lexed delimiters place).2 =
          some error) :
      SearchEnds opener pending delimiters place reader (.error error, after)
  /-- The close tag stands behind tokens that close all sections within. -/
  | found
      {closer : Token}
      {final : Delimiters}
      {after : Reader}
      {body : List Token}
      {place' : Place}
      (streams :
        lexed delimiters place =
          (body ++ closer :: (lexed final place').1, (lexed final place').2))
      (closesInner : openAfterAll pending body = .ok [])
      (closes : closer.kind = .closer)
      (named : closer.name = opener.name)
      (stands : after.StandsAt place')
      (sameCursor : after.cursor = reader.cursor)
      (notOwn : reader.cursor ∉ closer.marks)
      (shorter : place'.unread.length < place.unread.length) :
      SearchEnds opener pending delimiters place reader
        (.ok (closer, final), after)

/-- Reading one more token before the close tag. -/
theorem SearchEnds.of_read
    {pending opened : List Token}
    {next : Reader}
    {place' : Place}
    {delimiters' : Delimiters}
    {result : Except RenderError (Token × Delimiters) × Reader}
    (streams :
      lexed delimiters place =
        (token :: (lexed delimiters' place').1, (lexed delimiters' place').2))
    (shorter : place'.unread.length < place.unread.length)
    (opens : token.openAfter pending = .ok opened)
    (opensAll :
      token.openAfter (pending ++ [opener]) = .ok (opened ++ [opener]))
    (sameCursor : next.cursor = reader.cursor)
    (later : SearchEnds opener opened delimiters' place' next result) :
    SearchEnds opener pending delimiters place reader result := by
  cases later with
  | failed reports =>
    apply SearchEnds.failed
    rw [streams, verdict_cons opensAll]
    exact reports
  | @found closer final _ body last streams' closesInner closes named stands
      cursor notOwn shorter' =>
    have streamsAll :
        lexed delimiters place =
          ((token :: body) ++ closer :: (lexed final last).1,
            (lexed final last).2) := by
      rw [streams, streams']
      rfl
    have closesAll : openAfterAll pending (token :: body) = .ok [] := by
      rw [openAfterAll, opens]
      exact closesInner
    exact .found streamsAll closesAll closes named stands
      (cursor.trans sameCursor) (sameCursor ▸ notOwn)
      (Nat.lt_trans shorter' shorter)

/-- A close tag at the head that closes no inner section. -/
theorem SearchEnds.of_closer
    {place' : Place}
    (streams :
      lexed delimiters place =
        (token :: (lexed delimiters place').1, (lexed delimiters place').2))
    (shorter : place'.unread.length < place.unread.length)
    (closes : token.kind = .closer)
    (stands : after.StandsAt place')
    (sameCursor : after.cursor = reader.cursor)
    (notOwn : reader.cursor ∉ token.marks) :
    SearchEnds opener [] delimiters place reader
      (if token.name = opener.name then
          (.ok (token, delimiters), after)
        else
          (.error (.unbalancedSection token.source token.line), after)) := by
  split
  · rename_i named
    have alone :
        lexed delimiters place =
          ([] ++ token :: (lexed delimiters place').1,
            (lexed delimiters place').2) :=
      streams
    exact .found alone rfl closes named stands sameCursor notOwn shorter
  · rename_i different
    apply SearchEnds.failed
    rw [streams]
    apply verdict_cons_error
    apply Token.openAfter_of_mismatch closes
    rintro inner ⟨⟩
    exact fun named => different named.symm

/--
A search ends with the close tag of the section, or with what its tokens report.
-/
theorem StandsAt.searchEnds
    (stands : reader.StandsAt place)
    (opener : Token)
    {pending : List Token}
    (other : reader.cursor ∉ pendingMarks pending)
    {budget : Nat}
    (enough : place.unread.length < budget) :
    SearchEnds opener pending delimiters place reader
      (reader.findCloser opener budget delimiters pending) := by
  induction budget generalizing reader place delimiters pending with
  | zero => cases enough
  | succ budget ih =>
    cases result : scan delimiters place.unread with
    | finished skipped =>
      rcases next_of_finished stands.standing result with ⟨after, read, -⟩
      rw [findCloser_of_end read]
      apply SearchEnds.failed
      simp [lexed_of_finished result, verdict, openAfterAll]
    | faulty skipped fault =>
      rcases stands.next_of_faulty result with ⟨after, read⟩
      rw [findCloser_of_error read]
      apply SearchEnds.failed
      rw [lexed_of_faulty result]
      rfl
    | found skipped piece rest =>
      rcases stands.next_of_found result with ⟨between, read, took, behind⟩
      have streams := lexed_of_found result
      have shorter := length_lt_of_scan result
      have notOwn := took.cursor_notMem stands.standing
      have fits : rest.length < budget := by omega
      have same (notSwitch : piece.kind ≠ .setDelimiters) :
          piece.delimitersAfter delimiters = delimiters :=
        delimitersAfter_of_scan result notSwitch
      rw [← took.cursor_eq] at other notOwn
      by_cases opens : piece.kind.opensSection = true
      · rw [same (TokenKind.ne_of_opensSection opens rfl)] at streams
        have free :
            between.cursor ∉
              pendingMarks (place.token skipped piece :: pending) := by
          simpa [pendingMarks, notOwn] using other
        rw [findCloser_of_opener opener opens read]
        exact .of_read streams shorter (Token.openAfter_of_opener opens pending)
          (Token.openAfter_of_opener opens _) took.cursor_eq
          (ih behind free fits)
      · rw [Bool.not_eq_true] at opens
        by_cases closes : piece.kind = .closer
        · rw [same (ne_of_eq_of_ne closes TokenKind.noConfusion)] at streams
          rw [findCloser_of_closer opener closes read]
          rw [took.cursor_eq] at notOwn
          cases pending with
          | nil =>
            exact .of_closer streams shorter closes behind took.cursor_eq notOwn
          | cons inner outer =>
            simp only [pendingMarks, List.flatMap_cons, List.mem_append, not_or]
              at other
            dsimp only
            split
            · rename_i named
              rw [← took.cursor_eq] at notOwn
              have released := (behind.release other.1).release notOwn
              have cursor :
                  ((between.release inner).release
                      (place.token skipped piece)).cursor =
                    reader.cursor :=
                took.cursor_eq
              exact .of_read streams shorter
                (Token.openAfter_of_closer closes named outer)
                (Token.openAfter_of_closer closes named _) cursor
                (ih released other.2 fits)
            · rename_i different
              apply SearchEnds.failed
              rw [streams]
              apply verdict_cons_error
              apply Token.openAfter_of_mismatch closes
              rintro _ ⟨⟩
              exact different
        · rw [findCloser_of_other opener (Bool.eq_false_iff.1 opens) closes
              read]
          have cursor :
              (between.release (place.token skipped piece)).cursor =
                reader.cursor :=
            took.cursor_eq
          exact .of_read streams shorter
            (Token.openAfter_of_other opens closes pending)
            (Token.openAfter_of_other opens closes _) cursor
            (ih (behind.release notOwn) other fits)

/-! ## The next node -/

/-- What a reader at a place gives for the next node. -/
inductive NodeReads
    (delimiters : Delimiters)
    (place : Place) :
    Except RenderError (Option Node) × Delimiters × Reader → Prop
  /-- The tokens report an error. -/
  | failed
      {error : RenderError}
      {after : Reader}
      (reports :
        verdict [] (lexed delimiters place).1 (lexed delimiters place).2 =
          some error) :
      NodeReads delimiters place (.error error, delimiters, after)
  /-- There are no tokens left. -/
  | finished
      {after : Reader}
      (streams : lexed delimiters place = ([], none)) :
      NodeReads delimiters place (.ok none, delimiters, after)
  /-- There are tokens that make one node, and others behind them. -/
  | node
      {node : Node}
      {final : Delimiters}
      {after : Reader}
      {tokens : List Token}
      {place' : Place}
      (streams :
        lexed delimiters place =
          (tokens ++ (lexed final place').1, (lexed final place').2))
      (arranged : Arranges tokens [node])
      (kept : after.StandsAt place')
      (released : (node.release after).StandsAt place')
      (shorter : place'.unread.length < place.unread.length) :
      NodeReads delimiters place (.ok (some node), final, after)

/-- What is read for a node are the tokens that make it. -/
theorem StandsAt.nodeReads
    (stands : reader.StandsAt place)
    (delimiters : Delimiters) :
    NodeReads delimiters place (reader.nextNode delimiters) := by
  cases result : scan delimiters place.unread with
  | finished skipped =>
    rcases next_of_finished stands.standing result with ⟨after, read, -⟩
    rw [Reader.nextNode, read]
    exact .finished (lexed_of_finished result)
  | faulty skipped fault =>
    rcases stands.next_of_faulty result with ⟨after, read⟩
    rw [Reader.nextNode, read]
    apply NodeReads.failed
    rw [lexed_of_faulty result]
    rfl
  | found skipped piece rest =>
    rcases stands.next_of_found result with ⟨between, read, took, behind⟩
    have streams := lexed_of_found result
    have shorter := length_lt_of_scan result
    have notOwn := took.after_notMem stands.standing
    by_cases opens : piece.kind.opensSection = true
    · have same : piece.delimitersAfter delimiters = delimiters :=
        delimitersAfter_of_scan result (TokenKind.ne_of_opensSection opens rfl)
      rw [same] at streams
      rw [nextNode_of_opener opens read]
      have enough : rest.length < between.buffer.size + 1 := by
        have length := Text.length_le_byteSize rest
        rw [← Buffer.byteSize_text, behind.standing.text_eq,
          Text.byteSize_append]
        have unread : (place.behind skipped piece rest).unread = rest := rfl
        rw [unread]
        omega
      have searched :
          SearchEnds (place.token skipped piece) [] delimiters
            (place.behind skipped piece rest) between
            (findCloser (place.token skipped piece) (between.buffer.size + 1)
              between delimiters []) :=
        behind.searchEnds _ List.not_mem_nil enough
      generalize findCloser (place.token skipped piece)
          (between.buffer.size + 1) between delimiters [] = answer at searched ⊢
      cases searched with
      | failed reports =>
        apply NodeReads.failed
        rw [streams, verdict_cons (Token.openAfter_of_opener opens [])]
        exact reports
      | @found closer final after body last streams' closesInner closes named
          stands' cursor notCloser shorter' =>
        have inner := LeavesOpen.of_openAfterAll (.closed .nil) closesInner
        rcases leavesOpen_nil_iff.1 inner with ⟨nodes, inside⟩
        have streamsAll :
            lexed delimiters place =
              (place.token skipped piece :: (body ++ [closer]) ++
                  (lexed final last).1, (lexed final last).2) := by
          rw [streams, streams']
          simp
        rw [← cursor] at notOwn notCloser
        have released := (stands'.release notOwn).release notCloser
        exact .node streamsAll (.paired opens closes named inside .nil) stands'
          released (Nat.lt_trans shorter' shorter)
    · rw [Bool.not_eq_true] at opens
      by_cases closes : piece.kind = .closer
      · rw [nextNode_of_closer closes read]
        apply NodeReads.failed
        rw [streams]
        exact verdict_cons_error (Token.openAfter_of_mismatch closes (by simp))
          _ _
      · rw [nextNode_of_other (Bool.eq_false_iff.1 opens) closes read]
        exact .node streams (.leaf opens closes .nil) behind
          (behind.release notOwn) shorter

/-! ## All nodes -/

/--
The nodes that a reader gives one after the other, and the error that ends them
too early if there is one.  The marks of a node may be released before the next
one is read.
-/
inductive Yields : Reader → Delimiters → List Node → Option RenderError → Prop
  /-- There are no more nodes. -/
  | finished
      {reader after : Reader}
      {delimiters final : Delimiters}
      (read : reader.nextNode delimiters = (.ok none, final, after)) :
      Yields reader delimiters [] none
  /-- There is an error. -/
  | failed
      {reader after : Reader}
      {delimiters final : Delimiters}
      {error : RenderError}
      (read : reader.nextNode delimiters = (.error error, final, after)) :
      Yields reader delimiters [] (some error)
  /-- There is a node, and the reader goes on behind it. -/
  | node
      {reader after next : Reader}
      {delimiters final : Delimiters}
      {node : Node}
      {nodes : List Node}
      {ending : Option RenderError}
      (read : reader.nextNode delimiters = (.ok (some node), final, after))
      (goesOn : next = after ∨ next = node.release after)
      (further : Yields next final nodes ending) :
      Yields reader delimiters (node :: nodes) ending

/--
The nodes are those of the tokens, and they end with what the tokens report.
-/
theorem Yields.arranges
    {nodes : List Node}
    {ending : Option RenderError}
    (yields : Yields reader delimiters nodes ending)
    (stands : reader.StandsAt place) :
    ending = verdict [] (lexed delimiters place).1 (lexed delimiters place).2 ∧
    (ending = none → Arranges (lexed delimiters place).1 nodes) := by
  induction yields generalizing place with
  | @finished reader _ delimiters _ read =>
    have reads := stands.nodeReads delimiters
    rw [read] at reads
    cases reads with
    | finished streams =>
      rw [streams]
      exact ⟨rfl, fun _ => .nil⟩
  | @failed reader _ delimiters _ _ read =>
    have reads := stands.nodeReads delimiters
    rw [read] at reads
    cases reads with
    | failed reports => exact ⟨reports.symm, fun noError => by cases noError⟩
  | @node reader _ next delimiters _ node _ _ read goesOn _ ih =>
    have reads := stands.nodeReads delimiters
    rw [read] at reads
    cases reads with
    | @node _ _ _ _ place' streams arranged kept released shorter =>
      have stands' : next.StandsAt place' := by
        rcases goesOn with rfl | rfl
        · exact kept
        · exact released
      rcases ih stands' with ⟨same, arrangedRest⟩
      rw [streams, verdict_append (arranged.openAfterAll_eq [])]
      exact ⟨same, fun noError => arranged.append (arrangedRest noError)⟩

/-- A reader of nodes comes to an end, whether or not it releases them. -/
theorem StandsAt.yields
    (stands : reader.StandsAt place)
    (delimiters : Delimiters) :
    ∃ nodes ending, Yields reader delimiters nodes ending := by
  induction size : place.unread.length using Nat.strongRecOn
    generalizing reader place delimiters with
  | ind size ih =>
    have reads := stands.nodeReads delimiters
    generalize read : reader.nextNode delimiters = answer at reads
    cases reads with
    | failed => exact ⟨[], _, .failed read⟩
    | finished => exact ⟨[], none, .finished read⟩
    | node _ _ kept _ shorter =>
      rcases ih _ (size ▸ shorter) kept _ rfl with ⟨nodes, ending, further⟩
      exact ⟨_, ending, .node read (.inl rfl) further⟩

/-- The answer of a check that reports an error or nothing. -/
def reported : Option RenderError → Except RenderError Unit
  | none => .ok ()
  | some error => .error error

theorem reported_eq_ok_iff {report : Option RenderError} :
    reported report = .ok () ↔ report = none := by
  cases report <;> simp [reported]

theorem reported_eq_error_iff
    {report : Option RenderError}
    {error : RenderError} :
    reported report = .error error ↔ report = some error := by
  cases report <;> simp [reported]

/-- Checking a template reports what its tokens report. -/
theorem StandsAt.checkFrom_eq
    (stands : reader.StandsAt place)
    (delimiters : Delimiters)
    {budget : Nat}
    (enough : place.unread.length < budget) :
    checkFrom budget reader delimiters =
      reported
        (verdict [] (lexed delimiters place).1 (lexed delimiters place).2) := by
  induction budget generalizing reader place delimiters with
  | zero => cases enough
  | succ budget ih =>
    have reads := stands.nodeReads delimiters
    rw [checkFrom]
    generalize reader.nextNode delimiters = answer at reads ⊢
    cases reads with
    | failed reports =>
      rw [reports]
      rfl
    | finished streams =>
      rw [streams]
      rfl
    | node streams arranged _ released shorter =>
      rw [streams, verdict_append (arranged.openAfterAll_eq [])]
      exact ih released _ (by omega)

end Reader

open Reader

/--
A template is accepted when its tokens can be streamed to the end and are
well-nested; then its nodes are those of the one arrangement of its tokens, and
each opener has the close tag that pairs with it.  Any other template is refused
with the error of its first offence.
-/
theorem validate_eq_arranges
    (template : Text)
    (delimiters : Delimiters) :
    ∃ tokens ending after,
      Streams (ofText template) delimiters tokens ending after ∧
      ((ofText template).tokens delimiters).1 = collected tokens ending ∧
      (validate template delimiters = .ok () ↔
        ending = none ∧ ∃ nodes, Arranges tokens nodes) ∧
      (validate template delimiters = .ok () →
        ∃ nodes,
          Arranges tokens nodes ∧
          (∃ ended, Yields (ofText template) delimiters nodes ended) ∧
          ∀ yielded ended,
            Yields (ofText template) delimiters yielded ended →
            yielded = nodes ∧ ended = none) ∧
      ∀ error,
        validate template delimiters = .error error ↔
          FirstOffence tokens ending error := by
  have stands := standsAt_ofText template
  rcases stands.streams delimiters with ⟨after, streams⟩
  have checked : validate template delimiters = reported (verdict [] _ _) :=
    stands.checkFrom_eq delimiters (Nat.lt_succ_self template.length)
  have accepts : validate template delimiters = .ok () ↔
      verdict [] (lexed delimiters (Place.start template)).1
        (lexed delimiters (Place.start template)).2 = none := by
    rw [checked]
    exact reported_eq_ok_iff
  refine ⟨_, _, after, streams, congrArg Prod.fst (tokens_of_streams streams),
    ?_, ?_, ?_⟩
  · rw [← verdict_eq_none_iff]
    exact accepts
  · intro accepted
    have nothing := accepts.1 accepted
    have arranges {yielded : List Node} {ended : Option RenderError}
        (yields : Yields (ofText template) delimiters yielded ended) :
        ended = none ∧
        Arranges (lexed delimiters (Place.start template)).1 yielded := by
      rcases yields.arranges stands with ⟨same, arranged⟩
      have noError := same.trans nothing
      exact ⟨noError, arranged noError⟩
    rcases stands.yields delimiters with ⟨nodes, ended, yields⟩
    refine ⟨nodes, (arranges yields).2, ⟨ended, yields⟩, ?_⟩
    intro yielded ended' yields'
    exact ⟨(arranges yields').2.unique (arranges yields).2,
      (arranges yields').1⟩
  · intro error
    rw [← verdict_eq_some_iff, checked]
    exact reported_eq_error_iff

end Mustache
