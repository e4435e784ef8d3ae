import Mustache.Proofs.Scan.Guard
import Mustache.Proofs.Token.Indented

/-!
# Partials that are indented

A partial is indented before it is read, so a tag of it that spans several lines
is, too.  The tags of the indented text are those of the text up to its first
fault, with their names and sources indented, and the fault is the same
(`survey_indentFrom`).  The pair that a set-delimiter tag installs is not to
change, so such a tag must stand on one line.
-/

namespace Mustache

/-- Every piece but a set-delimiter tag may span several lines. -/
def Piece.SwitchesInline (piece : Piece) : Prop :=
  piece.kind = .setDelimiters →
  ∀ character ∈ piece.source, Text.isLineBreak character = false

instance (piece : Piece) : Decidable piece.SwitchesInline :=
  letI :
      Decidable
        (∀ character ∈ piece.source, Text.isLineBreak character = false) :=
    List.decidableBAll _ _
  inferInstanceAs (Decidable (_ → _))

/--
A set-delimiter tag that installs no pair may not span several lines either.
-/
def Fault.SwitchesInline : Fault → Prop
  | invalidDelimiters tag =>
    ∀ character ∈ tag, Text.isLineBreak character = false
  | unbalancedSection _ | unclosedSection _ | unclosedTag _ => True

instance (fault : Fault) : Decidable fault.SwitchesInline :=
  match fault with
  | .invalidDelimiters tag =>
    List.decidableBAll (fun character => Text.isLineBreak character = false) tag
  | .unbalancedSection _ | .unclosedSection _ | .unclosedTag _ =>
    inferInstanceAs (Decidable True)

/--
A piece in an indented text.  A set-delimiter tag on one line stays as it is.
-/
def Piece.indented (indentation : Text) (piece : Piece) : Piece :=
  if piece.kind = .setDelimiters then
    piece
  else
    { piece with
      name := Text.indentFrom indentation false piece.name
      source := Text.indentFrom indentation false piece.source }

variable {indentation : Text} {delimiters final : Delimiters} {piece : Piece}

theorem delimiters_indented
    (indentation : Text)
    (piece : Piece) :
    (piece.indented indentation).delimiters = piece.delimiters := by
  unfold Piece.indented
  split <;> rfl

theorem delimitersAfter_indented
    (indentation : Text)
    (piece : Piece)
    (delimiters : Delimiters) :
    (piece.indented indentation).delimitersAfter delimiters =
      piece.delimitersAfter delimiters := by
  unfold Piece.delimitersAfter
  rw [delimiters_indented]

theorem kind_indented
    (indentation : Text)
    (piece : Piece) :
    (piece.indented indentation).kind = piece.kind := by
  unfold Piece.indented
  split <;> rfl

theorem name_indented
    (indentation : Text)
    (other : piece.kind ≠ .setDelimiters) :
    (piece.indented indentation).name =
      Text.indentFrom indentation false piece.name := by
  unfold Piece.indented
  rw [if_neg other]

theorem source_indented
    (indentation : Text)
    (other : piece.kind ≠ .setDelimiters) :
    (piece.indented indentation).source =
      Text.indentFrom indentation false piece.source := by
  unfold Piece.indented
  rw [if_neg other]

theorem pairsOf_indented
    (indentation : Text)
    (delimiters : Delimiters)
    (tags : List Piece) :
    pairsOf delimiters (tags.map (Piece.indented indentation)) =
      pairsOf delimiters tags := by
  unfold pairsOf
  rw [List.filterMap_map]
  congr 2
  ext1 piece
  exact delimiters_indented indentation piece

/-- A fault of an indented text. -/
def Fault.indented (indentation : Text) : Fault → Fault
  | unbalancedSection tag =>
    .unbalancedSection (Text.indentFrom indentation false tag)
  | unclosedSection tag =>
    .unclosedSection (Text.indentFrom indentation false tag)
  | invalidDelimiters tag =>
    .invalidDelimiters (Text.indentFrom indentation false tag)
  | unclosedTag tag => .unclosedTag (Text.indentFrom indentation false tag)

/-- Only openers are kept as open sections. -/
theorem openers_openAfter
    {opened after : List Piece}
    (opens : piece.openAfter opened = .ok after)
    (openers : ∀ opener ∈ opened, opener.kind.opensSection = true) :
    ∀ opener ∈ after, opener.kind.opensSection = true := by
  rcases openAfter_eq_ok opens with
    ⟨isOpener, rfl⟩ | ⟨-, inner, rfl, -⟩ | ⟨-, -, rfl⟩
  · exact List.forall_mem_cons.2 ⟨isOpener, openers⟩
  · exact (List.forall_mem_cons.1 openers).2
  · exact openers

/--
Indented tags close the same sections, and a close tag that closes none does not
either.
-/
theorem openAfter_indented
    (inline : ∀ character ∈ indentation, Text.isLineBreak character = false)
    {opened : List Piece}
    (openers : ∀ opener ∈ opened, opener.kind.opensSection = true)
    (piece : Piece) :
    (piece.indented indentation).openAfter
      (opened.map (Piece.indented indentation)) =
      match piece.openAfter opened with
      | .ok after => .ok (after.map (Piece.indented indentation))
      | .error fault => .error (fault.indented indentation) := by
  have sameKind := kind_indented indentation piece
  by_cases isOpener : piece.kind.opensSection = true
  · rw [openAfter_of_opener isOpener, openAfter_of_opener (by rwa [sameKind])]
    rfl
  · by_cases isCloser : piece.kind = .closer
    · have other : piece.kind ≠ .setDelimiters :=
        ne_of_eq_of_ne isCloser TokenKind.noConfusion
      rw [openAfter_of_closer isCloser, openAfter_of_closer (by rwa [sameKind])]
      cases opened with
      | nil =>
        simp only
          [List.map_nil, source_indented indentation other, Fault.indented]
      | cons inner outer =>
        have isInner := openers inner List.mem_cons_self
        have innerOther : inner.kind ≠ .setDelimiters :=
          TokenKind.ne_of_opensSection isInner rfl
        have sameName :
            (inner.indented indentation).name =
              (piece.indented indentation).name ↔
              inner.name = piece.name := by
          rw [name_indented indentation innerOther,
            name_indented indentation other]
          exact ⟨Text.indentFrom_injective inline false, congrArg _⟩
        simp only [List.map_cons, sameName, source_indented indentation other]
        split <;> rfl
    · rw [openAfter_of_other isOpener isCloser,
        openAfter_of_other (by rwa [sameKind]) (by rwa [sameKind])]

/-! ## Tags -/

/-- A body is a single dot after indenting exactly when it was one before. -/
theorem eq_dot_of_indented
    {body body' closing : Text}
    (solid : ∀ character ∈ closing, Text.isBlank character = false)
    (same :
      Text.indentFrom indentation false (body ++ closing) = body' ++ closing) :
    body' = ['.'] ↔ body = ['.'] := by
  constructor
  · rintro rfl
    have fits := Text.length_le_indentFrom indentation false (body ++ closing)
    rw [same, List.length_append, List.length_append] at fits
    have head := Text.head?_indentFrom indentation (body ++ closing)
    rw [same] at head
    cases body with
    | nil =>
      rw [List.nil_append, Text.indentFrom_of_solid solid] at same
      have lengths := congrArg List.length same
      simp at lengths
    | cons character rest =>
      cases head
      have nothing : rest = [] := by simpa using fits
      rw [nothing]
  · rintro rfl
    have inline :
        ∀ character ∈ ['.'] ++ closing, Text.isBlank character = false := by
      rintro character (_ | ⟨_, member⟩)
      · rfl
      · exact solid character member
    rw [Text.indentFrom_of_solid inline] at same
    exact (List.append_cancel_right same).symm

/-- A malformed tag stays malformed, and no other tag becomes so. -/
theorem malformed?_indented
    {body body' closing : Text}
    (solid : ∀ character ∈ closing, Text.isBlank character = false)
    (same :
      Text.indentFrom indentation false (body ++ closing) = body' ++ closing)
    (kind : TokenKind)
    (source : Text) :
    (Lexeme.tag kind (Text.indentFrom indentation false source)
        body').malformed? =
      (Lexeme.tag kind source body).malformed?.map
        (Text.indentFrom indentation false) := by
  have isDot := eq_dot_of_indented solid same
  cases kind with
  | implicit =>
    by_cases more : body = ['.']
    · simp only
        [Lexeme.malformed?, if_pos more, if_pos (isDot.2 more), Option.map_none]
    · simp only [Lexeme.malformed?, if_neg more, if_neg (mt isDot.1 more),
        Option.map_some]
  | _ => rfl

/-- A tag that stands on one line is the same in an indented text. -/
theorem eq_of_indented_inline
    {source body body' closing : Text}
    (solid : ∀ character ∈ closing, Text.isBlank character = false)
    (inline : ∀ character ∈ source, Text.isLineBreak character = false)
    (subset : ∀ character ∈ body, character ∈ source)
    (same :
      Text.indentFrom indentation false (body ++ closing) = body' ++ closing) :
    body' = body := by
  rw [Text.indentFrom_of_inline] at same
  · exact (List.append_cancel_right same).symm
  · intro character member
    rcases List.mem_append.1 member with within | within
    · exact inline character (subset character within)
    · exact Text.not_isLineBreak_of_not_isBlank (solid character within)

theorem piece_of_other
    {kind : TokenKind}
    (other : kind ≠ .setDelimiters)
    (source body unread : Text) :
    (Lexeme.tag kind source body).piece unread =
      .ok ⟨kind, body.trim, source, none⟩ := by
  cases kind with
  | setDelimiters => exact absurd rfl other
  | _ => rfl

/-- The piece of an indented tag is the piece of the tag, indented. -/
theorem piece_indented
    {kind : TokenKind}
    {source body body' closing : Text}
    (blankIndentation :
      ∀ character ∈ indentation, Text.isBlank character = true)
    (nonempty : closing ≠ [])
    (solid : ∀ character ∈ closing, Text.isBlank character = false)
    (made : (Lexeme.tag kind source body).piece [] = .ok piece)
    (inline : piece.SwitchesInline)
    (subset : ∀ character ∈ body, character ∈ source)
    (same :
      Text.indentFrom indentation false (body ++ closing) = body' ++ closing) :
    (Lexeme.tag kind (Text.indentFrom indentation false source) body').piece
        [] =
      .ok (piece.indented indentation) := by
  rcases Lexeme.piece_tag_eq_ok made with ⟨rfl, rfl⟩
  unfold Piece.indented
  by_cases isSet : piece.kind = .setDelimiters
  · rw [if_pos isSet, Text.indentFrom_of_inline (inline isSet),
      eq_of_indented_inline solid (inline isSet) subset same]
    exact made
  · have trimmed := Text.trim_of_indentFrom blankIndentation nonempty solid same
    rw [piece_of_other isSet] at made
    have name := congrArg Piece.name (Except.ok.inj made)
    have none := congrArg Piece.delimiters (Except.ok.inj made)
    rw [if_neg isSet, piece_of_other isSet, trimmed, ← name, ← none]

/-- An indentation that may stand before a character is blank. -/
theorem blank_added
    (blankIndentation :
      ∀ character ∈ indentation, Text.isBlank character = true)
    (holds : Bool) :
    ∀ character ∈ if holds then indentation else [],
      Text.isBlank character = true := by
  cases holds with
  | true => exact blankIndentation
  | false => simp

/--
Before a tag comes at most an indentation, and the tag is indented by itself.
-/
theorem Delimiters.Enclose.indentFrom
    {source : Text}
    (encloses : delimiters.Enclose source)
    (solid : delimiters.Solid)
    (indentation : Text)
    (lineStart : Bool)
    (text : Text) :
    Text.indentFrom indentation lineStart (source ++ text) =
      (if lineStart then indentation else []) ++
        (Text.indentFrom indentation false source ++
          Text.indentFrom indentation false text) := by
  rcases encloses.head_solid solid with ⟨first, isFirst, firstSolid⟩
  rcases encloses.last_solid solid with ⟨last, isLast, lastSolid⟩
  have nonempty : source ≠ [] := by
    rintro rfl
    cases isFirst
  have starts :
      ∀ other, source.head? = some other → Text.isBlank other = false := by
    intro other isOther
    rw [isFirst] at isOther
    cases isOther
    exact firstSolid
  rw [Text.indentFrom_append_of_ne_nil nonempty isLast lastSolid,
    Text.indentFrom_of_head_solid starts nonempty, List.append_assoc]

/-- What is read at the head of an indented text. -/
theorem Lexeme.read_indented
    {kind : TokenKind}
    {source body text : Text}
    (isRead : read delimiters (source ++ text) = tag kind source body)
    (solid : delimiters.Solid)
    (blankIndentation :
      ∀ character ∈ indentation, Text.isBlank character = true) :
    ∃ body',
      read delimiters
          (Text.indentFrom indentation false source ++
            Text.indentFrom indentation false text) =
        tag kind (Text.indentFrom indentation false source) body' ∧
      Text.indentFrom indentation false (body ++ delimiters.closing) =
        body' ++ delimiters.closing ∧
      ∀ character ∈ body, character ∈ source := by
  have split := (enclose_of_read isRead).indentFrom solid indentation false text
  rw [← List.nil_append (Text.indentFrom indentation false source ++ _)]
  exact split ▸ read_indentFrom solid blankIndentation isRead

/-! ## The text as a whole -/

variable {opened : List Piece}

/-- What a survey of an indented text finds, given what it finds of the text. -/
def indentedSurvey
    (indentation : Text)
    (found : List Piece × Option Fault) : List Piece × Option Fault :=
  (found.1.map (Piece.indented indentation),
    found.2.map (Fault.indented indentation))

/-- An indentation before a text is passed over. -/
theorem survey_added
    (solid : delimiters.Solid)
    (blankIndentation :
      ∀ character ∈ indentation, Text.isBlank character = true)
    (opened : List Piece)
    (lineStart : Bool)
    (text : Text) :
    survey delimiters opened ((if lineStart then indentation else []) ++ text) =
      survey delimiters opened text :=
  (passesText_survey delimiters opened).blank solid
    (blank_added blankIndentation lineStart) text

theorem survey_indented_nil
    (openers : ∀ opener ∈ opened, opener.kind.opensSection = true) :
    survey delimiters (opened.map (Piece.indented indentation)) [] =
      indentedSurvey indentation (survey delimiters opened []) := by
  rw [survey_of_finished (scan_nil delimiters),
    survey_of_finished (scan_nil delimiters), List.getLast?_map]
  cases isLast : opened.getLast? with
  | none => rfl
  | some opener =>
    have opens := openers opener (List.mem_of_getLast? isLast)
    have other : opener.kind ≠ .setDelimiters :=
      TokenKind.ne_of_opensSection opens rfl
    simp only [indentedSurvey, Option.map_some,
      source_indented indentation other, Fault.indented, List.map_nil]

/-- An unclosed tag is unclosed in an indented text. -/
theorem survey_indented_unclosed
    {text : Text}
    (isRead : Lexeme.read delimiters text = .unclosed)
    (solid : delimiters.Solid)
    (blankIndentation :
      ∀ character ∈ indentation, Text.isBlank character = true)
    (lineStart : Bool) :
    survey delimiters (opened.map (Piece.indented indentation))
        (Text.indentFrom indentation lineStart text) =
      indentedSurvey indentation (survey delimiters opened text) := by
  rcases opensAt_iff.1 (Lexeme.opens_of_unclosed isRead) with
    ⟨nonempty, -, rest, rfl⟩
  have again :=
    Lexeme.read_indentFrom_eq_unclosed
      (fun character member =>
        (List.mem_append.1 member).elim (solid.opening character)
          (solid.closing character))
      blankIndentation isRead
  have textNonempty : delimiters.opening ++ rest ≠ [] := by simp [nonempty]
  have starts : ∀ first, (delimiters.opening ++ rest).head? = some first →
      Text.isBlank first = false := by
    intro first isFirst
    rcases List.exists_cons_of_ne_nil nonempty with ⟨head, others, isOpening⟩
    rw [isOpening] at isFirst
    cases isFirst
    exact solid.opening _ (by simp [isOpening])
  have indentedNonempty :
      Text.indentFrom indentation false (delimiters.opening ++ rest) ≠ [] := by
    rw [Text.indentFrom_solid_append solid.opening]
    simp [nonempty]
  rw [Text.indentFrom_of_head_solid starts textNonempty,
    survey_added solid blankIndentation,
    survey_of_faulty (scan_of_fault indentedNonempty again rfl rfl),
    survey_of_faulty (scan_of_fault textNonempty isRead rfl rfl)]
  rfl

/-- A tag that installs no pair installs none in an indented text, either. -/
theorem piece_eq_error_indented
    {kind : TokenKind}
    {source body body' closing : Text}
    {fault : Fault}
    (solid : ∀ character ∈ closing, Text.isBlank character = false)
    (faulty : (Lexeme.tag kind source body).piece [] = .error fault)
    (inline : fault.SwitchesInline)
    (subset : ∀ character ∈ body, character ∈ source)
    (same :
      Text.indentFrom indentation false (body ++ closing) = body' ++ closing) :
    (Lexeme.tag kind (Text.indentFrom indentation false source) body').piece
        [] =
      .error (fault.indented indentation) := by
  cases kind with
  | setDelimiters =>
    simp only [Lexeme.piece] at faulty ⊢
    split at faulty
    · rename_i notInstalled
      cases faulty
      rw [eq_of_indented_inline solid inline subset same, notInstalled]
      rfl
    · cases faulty
  | _ => cases faulty

section Tag

variable
    {kind : TokenKind}
    {source body text : Text}
    (isRead : Lexeme.read delimiters (source ++ text) = .tag kind source body)
    (solid : delimiters.Solid)
    (inlineIndentation :
      ∀ character ∈ indentation, Text.isInlineBlank character = true)

include isRead solid inlineIndentation

theorem survey_indented_malformed
    {malformed : Text}
    (isMalformed : (Lexeme.tag kind source body).malformed? = some malformed)
    (further :
      survey delimiters (opened.map (Piece.indented indentation))
          (Text.indentFrom indentation false text) =
        indentedSurvey indentation (survey delimiters opened text)) :
    survey delimiters (opened.map (Piece.indented indentation))
        (Text.indentFrom indentation false source ++
          Text.indentFrom indentation false text) =
      indentedSurvey indentation
        (survey delimiters opened (source ++ text)) := by
  rcases Lexeme.read_indented isRead solid
    (Text.blank_of_inlineBlank inlineIndentation) with ⟨body', isRead', same, -⟩
  have isMalformed' := malformed?_indented solid.closing same kind source
  rcases Lexeme.malformed?_eq_some isMalformed with ⟨_, isTag, -⟩
  cases isTag
  rw [isMalformed, ← isRead'] at isMalformed'
  rw [← isRead] at isMalformed
  rw [survey_of_malformed isMalformed, survey_of_malformed isMalformed',
    further]

theorem survey_indented_fault
    {fault : Fault}
    (wellFormed : (Lexeme.tag kind source body).malformed? = none)
    (faulty : (Lexeme.tag kind source body).piece [] = .error fault)
    (inlineFault :
      ∀ fault,
        (survey delimiters opened (source ++ text)).2 = some fault →
        fault.SwitchesInline) :
    survey delimiters (opened.map (Piece.indented indentation))
        (Text.indentFrom indentation false source ++
          Text.indentFrom indentation false text) =
      indentedSurvey indentation
        (survey delimiters opened (source ++ text)) := by
  rcases Lexeme.read_indented isRead solid
      (Text.blank_of_inlineBlank inlineIndentation) with
    ⟨body', isRead', same, subset⟩
  have wellFormed' := malformed?_indented solid.closing same kind source
  rw [wellFormed] at wellFormed'
  have nonempty : source ++ text ≠ [] := by simp [Lexeme.read_tag_ne_nil isRead]
  have nonempty' : Text.indentFrom indentation false source ++
      Text.indentFrom indentation false text ≠ [] := by
    simp [Lexeme.read_tag_ne_nil isRead']
  have found := survey_of_faulty (scan_of_fault nonempty isRead wellFormed
    ((Lexeme.piece_tag_congr ..).trans faulty)) opened
  rw [found] at inlineFault
  have faulty' :=
    piece_eq_error_indented solid.closing faulty (inlineFault fault rfl) subset
      same
  rw [found, survey_of_faulty (scan_of_fault nonempty' isRead' wellFormed'
    ((Lexeme.piece_tag_congr ..).trans faulty'))]
  rfl

theorem survey_indented_tag
    (openers : ∀ opener ∈ opened, opener.kind.opensSection = true)
    (wellFormed : (Lexeme.tag kind source body).malformed? = none)
    (made : (Lexeme.tag kind source body).piece [] = .ok piece)
    (inline :
      ∀ tag ∈ (survey delimiters opened (source ++ text)).1, tag.SwitchesInline)
    (further :
      ∀ after,
        piece.openAfter opened = .ok after →
        survey (piece.delimitersAfter delimiters)
            (after.map (Piece.indented indentation))
            (Text.indentFrom indentation false text) =
          indentedSurvey indentation
            (survey (piece.delimitersAfter delimiters) after text)) :
    survey delimiters (opened.map (Piece.indented indentation))
        (Text.indentFrom indentation false source ++
          Text.indentFrom indentation false text) =
      indentedSurvey indentation
        (survey delimiters opened (source ++ text)) := by
  have blankIndentation := Text.blank_of_inlineBlank inlineIndentation
  rcases Lexeme.read_indented isRead solid blankIndentation with
    ⟨body', isRead', same, subset⟩
  have wellFormed' := malformed?_indented solid.closing same kind source
  rw [wellFormed] at wellFormed'
  have switches : piece.SwitchesInline := by
    intro isSet
    have stays : piece.openAfter opened = .ok opened := by
      apply openAfter_of_other <;> rw [isSet]
      · exact Bool.false_ne_true
      · exact TokenKind.noConfusion
    rw [survey_of_tag isRead wellFormed made stays] at inline
    exact inline piece List.mem_cons_self isSet
  have made' :=
    piece_indented blankIndentation (Lexeme.enclose_of_read isRead).2.1
      solid.closing made switches subset same
  have opens' :=
    openAfter_indented
      (fun character member =>
        Text.not_isLineBreak_of_isInlineBlank
          (inlineIndentation character member))
      openers piece
  cases opens : piece.openAfter opened with
  | error fault =>
    rw [opens] at opens'
    rw [survey_of_unbalanced (scan_of_tag isRead wellFormed made) opens,
      survey_of_unbalanced (scan_of_tag isRead' wellFormed' made') opens']
    rfl
  | ok after =>
    rw [opens] at opens'
    rw [survey_of_tag isRead wellFormed made opens,
      survey_of_tag isRead' wellFormed' made' opens', delimitersAfter_indented,
      further after opens]
    rfl

end Tag

/--
The tags of an indented text up to its first fault are the tags of the text,
indented, and so is the fault.
-/
theorem survey_indentFrom
    (inlineIndentation :
      ∀ character ∈ indentation, Text.isInlineBlank character = true)
    (delimiters : Delimiters)
    (opened : List Piece)
    (openers : ∀ opener ∈ opened, opener.kind.opensSection = true)
    (text : Text)
    (solid :
      ∀ pair ∈ pairsOf delimiters (survey delimiters opened text).1, pair.Solid)
    (inline : ∀ piece ∈ (survey delimiters opened text).1, piece.SwitchesInline)
    (inlineFault :
      ∀ fault,
        (survey delimiters opened text).2 = some fault → fault.SwitchesInline)
    (lineStart : Bool) :
    survey delimiters (opened.map (Piece.indented indentation))
        (Text.indentFrom indentation lineStart text) =
      indentedSurvey indentation (survey delimiters opened text) := by
  have blankIndentation := Text.blank_of_inlineBlank inlineIndentation
  have solidHere := solid delimiters List.mem_cons_self
  cases isText : text with
  | nil => exact survey_indented_nil openers
  | cons character rest =>
    cases opens : delimiters.opensAt (character :: rest) with
    | false =>
      have closed :
          delimiters.opensAt
              (character ::
                Text.indentFrom indentation (Text.endsLine character rest)
                  rest) = false := by
        rw [← opens, Delimiters.opensAt,
          Lexeme.isPrefixOf_indentFrom solidHere.opening]
        rfl
      have passed := (passesText_survey delimiters opened).cons opens
      rw [isText, passed] at solid inline inlineFault
      rw [passed, Text.indentFrom, survey_added solidHere blankIndentation,
        (passesText_survey _ _).cons closed]
      exact survey_indentFrom inlineIndentation delimiters opened openers rest
        solid inline inlineFault _
    | true =>
      cases isRead : Lexeme.read delimiters (character :: rest) with
      | plain source =>
        rw [Delimiters.opensAt, (Lexeme.read_eq_plain isRead).1] at opens
        cases opens
      | unclosed =>
        exact survey_indented_unclosed isRead solidHere blankIndentation
          lineStart
      | tag kind source body =>
        rcases Lexeme.read_eq_tag isRead with ⟨-, left, -, -, -, split, -⟩
        have nonempty := List.length_pos_iff.2 (Lexeme.read_tag_ne_nil isRead)
        have shorter : left.length < text.length := by
          rw [isText, split, List.length_append]
          omega
        rw [isText, split] at solid inline inlineFault
        rw [split] at isRead ⊢
        rw [(Lexeme.enclose_of_read isRead).indentFrom solidHere,
          survey_added solidHere blankIndentation]
        cases wellFormed : (Lexeme.tag kind source body).malformed? with
        | some malformed =>
          apply survey_indented_malformed isRead solidHere inlineIndentation
            wellFormed
          rcases Lexeme.malformed?_eq_some wellFormed with ⟨_, isTag, -⟩
          cases isTag
          rw [← isRead] at wellFormed
          rw [survey_of_malformed wellFormed] at solid inline inlineFault
          exact survey_indentFrom inlineIndentation delimiters opened openers
            left solid inline inlineFault false
        | none =>
          cases made : (Lexeme.tag kind source body).piece [] with
          | error fault =>
            exact survey_indented_fault isRead solidHere inlineIndentation
              wellFormed made inlineFault
          | ok piece =>
            apply survey_indented_tag isRead solidHere inlineIndentation openers
              wellFormed made inline
            intro after opens
            rw [survey_of_tag isRead wellFormed made opens]
              at solid inline inlineFault
            exact survey_indentFrom inlineIndentation _ after
              (openers_openAfter opens openers) left
              (fun pair member =>
                solid pair (pairsOf_after piece _ pair member))
              (fun tag member => inline tag (List.mem_cons_of_mem _ member))
              inlineFault false
termination_by text.length

/--
An indented partial is surveyed as its source is, and the same pairs come into
effect.
-/
theorem survey_indent
    {source : Text}
    (inlineIndentation :
      ∀ character ∈ indentation, Text.isInlineBlank character = true)
    (solid : ∀ pair ∈ pairsIn .standard source, pair.Solid)
    (inline : ∀ tag ∈ (survey .standard [] source).1, tag.SwitchesInline)
    (inlineFault :
      ∀ fault ∈ (survey .standard [] source).2, fault.SwitchesInline) :
    survey .standard [] (source.indent indentation) =
      indentedSurvey indentation (survey .standard [] source) ∧
    pairsIn .standard (source.indent indentation) =
      pairsIn .standard source := by
  have again : survey .standard [] (source.indent indentation) =
      indentedSurvey indentation (survey .standard [] source) := by
    rw [Text.indent_eq]
    exact survey_indentFrom inlineIndentation .standard [] (by simp) source
      solid inline inlineFault true
  refine ⟨again, ?_⟩
  rw [pairsIn, again, indentedSurvey, pairsOf_indented]
  rfl

end Mustache
