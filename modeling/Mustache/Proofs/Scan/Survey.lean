import Mustache.Proofs.Scan.Passing

/-!
# Reading the tags of a whole text

A survey reads one tag after the other, inside sections and outside, and keeps
the sections that are open.  It ends at the first fault, or at the end of the
text, which is a fault if a section is still open there.  The pairs that come
into effect on the way are those that the tags install.
-/

namespace Mustache

/-- The sections that are open after a piece, the innermost first. -/
def Piece.openAfter
    (piece : Piece)
    (opened : List Piece) : Except Fault (List Piece) :=
  if piece.kind.opensSection then
    .ok (piece :: opened)
  else if piece.kind = .closer then
    match opened with
    | inner :: outer =>
      if inner.name = piece.name then
        .ok outer
      else
        .error (.unbalancedSection piece.source)
    | [] => .error (.unbalancedSection piece.source)
  else
    .ok opened

/-- The piece, unless it is text. -/
def Piece.tags (piece : Piece) : List Piece :=
  if piece.kind = .text then [] else [piece]

/-- The tags of a text that are read before the first fault, and that fault. -/
def survey
    (delimiters : Delimiters)
    (opened : List Piece)
    (unread : Text) : List Piece × Option Fault :=
  match _isScan : scan delimiters unread with
  | .finished _ =>
    ([], opened.getLast?.map fun opener => .unclosedSection opener.source)
  | .faulty _ fault => ([], some fault)
  | .found _ piece rest =>
    match piece.openAfter opened with
    | .error fault => ([], some fault)
    | .ok opened =>
      (piece.tags ++ (survey (piece.delimitersAfter delimiters) opened rest).1,
        (survey (piece.delimitersAfter delimiters) opened rest).2)
termination_by unread.length
decreasing_by all_goals exact length_lt_of_scan _isScan

/-- The pairs in effect from a given one on, when some tags are read. -/
def pairsOf (delimiters : Delimiters) (tags : List Piece) : List Delimiters :=
  delimiters :: tags.filterMap Piece.delimiters

/-- The pairs in effect in a template, up to its first fault. -/
def pairsIn (delimiters : Delimiters) (template : Text) : List Delimiters :=
  pairsOf delimiters (survey delimiters [] template).1

theorem pairsOf_subset
    {tags more : List Piece}
    (subset : ∀ piece ∈ tags, piece ∈ more)
    (delimiters : Delimiters) :
    ∀ pair ∈ pairsOf delimiters tags, pair ∈ pairsOf delimiters more := by
  intro pair member
  rcases List.mem_cons.1 member with rfl | member
  · exact List.mem_cons_self
  · rcases List.mem_filterMap.1 member with ⟨piece, within, installs⟩
    exact List.mem_cons_of_mem _
      (List.mem_filterMap.2 ⟨piece, subset piece within, installs⟩)

/--
From a pair on that comes into effect on the way, no other pairs come into
effect.
-/
theorem pairsOf_append
    {delimiters after : Delimiters}
    {tags : List Piece}
    (onTheWay : after ∈ pairsOf delimiters tags)
    (more : List Piece) :
    ∀ pair ∈ pairsOf after more, pair ∈ pairsOf delimiters (tags ++ more) := by
  intro pair member
  rcases List.mem_cons.1 member with rfl | installed
  · exact pairsOf_subset (fun piece within => List.mem_append_left _ within)
      delimiters _ onTheWay
  · unfold pairsOf
    rw [List.filterMap_append]
    exact List.mem_cons_of_mem _ (List.mem_append_right _ installed)

/-- No other pairs come into effect in what is left of a template. -/
theorem pairsIn_of_surveyed
    {delimiters after : Delimiters}
    {unread rest : Text}
    {tags : List Piece}
    (onTheWay : after ∈ pairsOf delimiters tags)
    (surveyed :
      survey delimiters [] unread =
        (tags ++ (survey after [] rest).1, (survey after [] rest).2)) :
    ∀ pair ∈ pairsIn after rest, pair ∈ pairsIn delimiters unread := by
  rw [pairsIn, pairsIn, surveyed]
  exact pairsOf_append onTheWay _

/--
The sections that are open after some tags, unless a close tag closes no
section.
-/
def nests (opened : List Piece) : List Piece → Option (List Piece)
  | [] => some opened
  | piece :: rest =>
    match piece.openAfter opened with
    | .ok opened => nests opened rest
    | .error _ => none

variable
    {delimiters : Delimiters}
    {unread skipped rest : Text}
    {piece : Piece}
    {opened after : List Piece}
    {fault : Fault}

theorem openAfter_of_opener
    (opens : piece.kind.opensSection = true)
    (opened : List Piece) :
    piece.openAfter opened = .ok (piece :: opened) :=
  if_pos opens

theorem openAfter_of_closer
    (closes : piece.kind = .closer)
    (opened : List Piece) :
    piece.openAfter opened =
      match opened with
      | inner :: outer =>
        if inner.name = piece.name then
          .ok outer
        else
          .error (.unbalancedSection piece.source)
      | [] => .error (.unbalancedSection piece.source) := by
  simp only [Piece.openAfter, closes, TokenKind.opensSection]
  cases opened <;> rfl

theorem openAfter_of_other
    (notOpener : ¬piece.kind.opensSection = true)
    (notCloser : piece.kind ≠ .closer)
    (opened : List Piece) :
    piece.openAfter opened = .ok opened := by
  unfold Piece.openAfter
  rw [if_neg notOpener, if_neg notCloser]

/-- A close tag closes the innermost section if it has its name. -/
theorem openAfter_of_same
    (closes : piece.kind = .closer)
    {inner : Piece}
    (same : inner.name = piece.name)
    (outer : List Piece) :
    piece.openAfter (inner :: outer) = .ok outer := by
  rw [openAfter_of_closer closes]
  exact if_pos same

theorem openAfter_of_different
    (closes : piece.kind = .closer)
    {inner : Piece}
    (different : inner.name ≠ piece.name)
    (outer : List Piece) :
    piece.openAfter (inner :: outer) =
      .error (.unbalancedSection piece.source) := by
  rw [openAfter_of_closer closes]
  exact if_neg different

/--
A piece opens a section, closes the innermost one, or leaves the sections as
they are.
-/
theorem openAfter_eq_ok (opens : piece.openAfter opened = .ok after) :
    piece.kind.opensSection = true ∧ after = piece :: opened ∨
    (piece.kind = .closer ∧
      ∃ inner, opened = inner :: after ∧ inner.name = piece.name) ∨
    piece.kind.opensSection = false ∧
      piece.kind ≠ .closer ∧
      after = opened := by
  by_cases isOpener : piece.kind.opensSection = true
  · rw [openAfter_of_opener isOpener] at opens
    cases opens
    exact .inl ⟨isOpener, rfl⟩
  · by_cases isCloser : piece.kind = .closer
    · rw [openAfter_of_closer isCloser] at opens
      cases opened with
      | nil => cases opens
      | cons inner outer =>
        simp only at opens
        split at opens
        · rename_i same
          cases opens
          exact .inr (.inl ⟨isCloser, inner, rfl, same⟩)
        · cases opens
    · rw [openAfter_of_other isOpener isCloser] at opens
      cases opens
      exact .inr (.inr ⟨Bool.eq_false_iff.2 isOpener, isCloser, rfl⟩)

theorem openAfter_of_text
    (isText : piece.kind = .text)
    (opened : List Piece) :
    piece.openAfter opened = .ok opened := by
  apply openAfter_of_other
  · rw [isText]
    exact Bool.false_ne_true
  · exact ne_of_eq_of_ne isText TokenKind.noConfusion

theorem nests_append
    (opened : List Piece)
    (first second : List Piece) :
    nests opened (first ++ second) =
      (nests opened first).bind (nests · second) := by
  induction first generalizing opened with
  | nil => rfl
  | cons piece first ih =>
    simp only [List.cons_append, nests]
    cases piece.openAfter opened with
    | error fault => rfl
    | ok after => exact ih after

theorem nests_tags (opens : piece.openAfter opened = .ok after) :
    nests opened piece.tags = some after := by
  unfold Piece.tags
  split
  · rename_i isText
    rw [openAfter_of_text isText] at opens
    cases opens
    rfl
  · simp only [nests, opens]

/-! ## One tag of a survey -/

theorem survey_of_finished
    (result : scan delimiters unread = .finished skipped)
    (opened : List Piece) :
    survey delimiters opened unread =
      ([],
        opened.getLast?.map fun opener => .unclosedSection opener.source) := by
  rw [survey]
  split <;> simp_all

theorem survey_of_faulty
    (result : scan delimiters unread = .faulty skipped fault)
    (opened : List Piece) :
    survey delimiters opened unread = ([], some fault) := by
  rw [survey]
  split <;> simp_all

theorem survey_of_unbalanced
    (result : scan delimiters unread = .found skipped piece rest)
    (unbalanced : piece.openAfter opened = .error fault) :
    survey delimiters opened unread = ([], some fault) := by
  rw [survey]
  split <;> simp_all

theorem survey_of_found
    (result : scan delimiters unread = .found skipped piece rest)
    (opens : piece.openAfter opened = .ok after) :
    survey delimiters opened unread =
      (piece.tags ++ (survey (piece.delimitersAfter delimiters) after rest).1,
        (survey (piece.delimitersAfter delimiters) after rest).2) := by
  rw [survey]
  split <;> simp_all

theorem passesText_survey
    (delimiters : Delimiters)
    (opened : List Piece) :
    PassesText delimiters (survey delimiters opened) := by
  intro character rest closed
  rw [survey_of_found (scan_of_not_opensAt closed)
      (openAfter_of_text rfl opened)]
  simp [Piece.tags, Piece.delimitersAfter]

/-- A malformed tag makes no difference. -/
theorem survey_of_malformed
    {source text : Text}
    (malformed :
      (Lexeme.read delimiters (source ++ text)).malformed? = some source)
    (opened : List Piece) :
    survey delimiters opened (source ++ text) =
      survey delimiters opened text := by
  have before := scan_of_malformed malformed
  cases result : scan delimiters text with
  | finished skipped =>
    rw [result] at before
    rw [survey_of_finished before, survey_of_finished result]
  | faulty skipped fault =>
    rw [result] at before
    rw [survey_of_faulty before, survey_of_faulty result]
  | found skipped piece rest =>
    rw [result] at before
    cases opens : piece.openAfter opened with
    | error fault =>
      rw [survey_of_unbalanced before opens, survey_of_unbalanced result opens]
    | ok after =>
      rw [survey_of_found before opens, survey_of_found result opens]

/-- A tag at the head of a text is the first one that a survey finds. -/
theorem survey_of_tag
    {source text body : Text}
    {kind : TokenKind}
    (isRead : Lexeme.read delimiters (source ++ text) = .tag kind source body)
    (wellFormed : (Lexeme.tag kind source body).malformed? = none)
    (made : (Lexeme.tag kind source body).piece [] = .ok piece)
    (opens : piece.openAfter opened = .ok after) :
    survey delimiters opened (source ++ text) =
      (piece :: (survey (piece.delimitersAfter delimiters) after text).1,
        (survey (piece.delimitersAfter delimiters) after text).2) := by
  have isTag : piece.kind ≠ .text := by
    rw [(Lexeme.piece_tag_eq_ok made).1]
    exact Lexeme.kind_of_read isRead
  rw [survey_of_found (scan_of_tag isRead wellFormed made) opens, Piece.tags,
    if_neg isTag]
  rfl

end Mustache
