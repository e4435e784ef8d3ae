import Mustache.Proofs.Scan.Node
import Mustache.Proofs.Scan.Survey

/-!
# The tags that a text is made of

A text in front of another one is made of tags when it falls into characters at
which no tag opens, malformed tags, and tags that make a piece, none of which
reaches beyond its end.  A text made of tags that close all sections has a
survey without a fault (`survey_of_tagsIn`), and what lies between the two tags
of a section is made of tags, with the close tag after it
(`survey_of_node_paired`).
-/

namespace Mustache

/--
`TagsIn delimiters text after tags final`: before the text `after`, the text is
made of the given tags; the pair in effect is `delimiters` at its start and
`final` at its end.
-/
inductive TagsIn :
    Delimiters → Text → Text → List Piece → Delimiters → Prop where
  | done
      (delimiters : Delimiters)
      (after : Text) :
      TagsIn delimiters [] after [] delimiters
  | character
      {delimiters final : Delimiters}
      {character : Char}
      {text after : Text}
      {tags : List Piece}
      (closed : delimiters.opensAt (character :: (text ++ after)) = false)
      (further : TagsIn delimiters text after tags final) :
      TagsIn delimiters (character :: text) after tags final
  | malformed
      {delimiters final : Delimiters}
      {kind : TokenKind}
      {source body text after : Text}
      {tags : List Piece}
      (isRead :
        Lexeme.read delimiters (source ++ (text ++ after)) =
          .tag kind source body)
      (isMalformed : (Lexeme.tag kind source body).malformed? = some source)
      (further : TagsIn delimiters text after tags final) :
      TagsIn delimiters (source ++ text) after tags final
  | tag
      {delimiters final : Delimiters}
      {kind : TokenKind}
      {source body text after : Text}
      {piece : Piece}
      {tags : List Piece}
      (isRead :
        Lexeme.read delimiters (source ++ (text ++ after)) =
          .tag kind source body)
      (wellFormed : (Lexeme.tag kind source body).malformed? = none)
      (made : (Lexeme.tag kind source body).piece [] = .ok piece)
      (further :
        TagsIn (piece.delimitersAfter delimiters) text after tags final) :
      TagsIn delimiters (source ++ text) after (piece :: tags) final

namespace TagsIn

variable
    {delimiters middle final : Delimiters}
    {text other after : Text}
    {tags more : List Piece}

theorem append
    (first : TagsIn delimiters text (other ++ after) tags middle)
    (second : TagsIn middle other after more final) :
    TagsIn delimiters (text ++ other) after (tags ++ more) final := by
  generalize isFollowing : other ++ after = following at first
  induction first with
  | done => exact second
  | character closed further ih =>
    subst isFollowing
    exact .character
      (by simpa only [List.append_eq, List.append_assoc] using closed)
      (ih second rfl)
  | malformed isRead isMalformed further ih =>
    subst isFollowing
    rw [List.append_assoc]
    exact .malformed (by rwa [List.append_assoc]) isMalformed (ih second rfl)
  | tag isRead wellFormed made further ih =>
    subst isFollowing
    rw [List.append_assoc]
    exact .tag (by rwa [List.append_assoc]) wellFormed made (ih second rfl)

/-- The pair in effect at the end came into effect on the way. -/
theorem final_mem (within : TagsIn delimiters text after tags final) :
    final ∈ pairsOf delimiters tags := by
  induction within with
  | done => exact List.mem_cons_self
  | character _ _ ih | malformed _ _ _ ih => exact ih
  | @tag delimiters _ _ _ _ _ _ piece _ _ _ _ _ ih =>
    cases isInstalled : piece.delimiters with
    | none =>
      rw [Piece.delimitersAfter, isInstalled] at ih
      rw [pairsOf, List.filterMap_cons_none isInstalled]
      exact ih
    | some installed =>
      rw [Piece.delimitersAfter, isInstalled] at ih
      rw [pairsOf, List.filterMap_cons_some isInstalled]
      exact List.mem_cons_of_mem _ ih

/-! ## Stretches of text -/

theorem upTo
    (delimiters : Delimiters)
    (text : Text) :
    TagsIn delimiters (Text.upTo delimiters.opening [] text)
      (text.drop (Text.upTo delimiters.opening [] text).length) []
      delimiters := by
  induction text with
  | nil => exact .done delimiters []
  | cons character rest ih =>
    by_cases starts : delimiters.opening <+: character :: rest
    · rw [Text.upTo_nil_of_starts starts]
      exact .done delimiters _
    · have all :=
        List.prefix_iff_eq_append.1 (Text.upTo_isPrefix delimiters.opening rest)
      rw [Text.upTo_cons_of_not_starts starts]
      refine .character ?_ ih
      rw [List.length_cons, List.drop_succ_cons, all]
      apply Bool.eq_false_iff.2
      intro opens
      exact starts (Lexeme.opens_iff.1 opens).2.2

theorem of_never
    (never : ∀ text, delimiters.opensAt text = false)
    (text after : Text) :
    TagsIn delimiters text after [] delimiters := by
  induction text with
  | nil => exact .done delimiters after
  | cons character rest ih => exact .character (never _) ih

theorem readPlain
    {character : Char}
    {rest : Text}
    (closed : delimiters.opensAt (character :: rest) = false) :
    TagsIn delimiters (Lexeme.readPlain delimiters.opening (character :: rest))
      ((character :: rest).drop
        (Lexeme.readPlain delimiters.opening (character :: rest)).length)
      [] delimiters := by
  rw [Lexeme.readPlain_cons]
  by_cases empty : delimiters.opening = []
  · have never (text : Text) : delimiters.opensAt text = false := by
      simp [Delimiters.opensAt, Delimiters.canMarkTags, empty]
    exact of_never never _ _
  · have all :=
      List.prefix_iff_eq_append.1 (Text.upTo_isPrefix delimiters.opening rest)
    rw [if_neg (by simpa using empty)]
    refine .character ?_ (upTo delimiters rest)
    rwa [List.length_cons, List.drop_succ_cons, all]

/-! ## Scans -/

/-- What is passed over before the next lexeme is made of malformed tags. -/
theorem of_next
    {skipped unread all : Text}
    {result : Option Lexeme}
    (found : Lexeme.next delimiters skipped unread = (all, result)) :
    ∃ passed rest,
      all = skipped ++ passed ∧
      unread = passed ++ rest ∧
      TagsIn delimiters passed rest [] delimiters := by
  fun_induction Lexeme.next delimiters skipped unread with
  | case1 skipped =>
    cases found
    exact ⟨[], [], (List.append_nil _).symm, rfl, .done delimiters []⟩
  | case2 skipped unread nonempty source malformed ih =>
    rcases ih found with ⟨passed, rest, rfl, remaining, made⟩
    have split := Lexeme.malformed?_isPrefix malformed
    rw [remaining] at split
    refine ⟨source ++ passed, rest, by simp, by simpa using split, ?_⟩
    rcases Lexeme.malformed?_eq_some malformed with ⟨body, isTag, isMore⟩
    rw [split] at isTag
    rw [split, isTag] at malformed
    exact .malformed isTag malformed made
  | case3 skipped unread nonempty wellFormed =>
    cases found
    exact ⟨[], unread, (List.append_nil _).symm, rfl, .done delimiters unread⟩

theorem of_skipped
    {unread skipped rest : Text}
    {piece : Piece}
    (result : scan delimiters unread = .found skipped piece rest) :
    TagsIn delimiters skipped (piece.source ++ rest) [] delimiters := by
  rcases of_next (read_of_scan result).1 with
    ⟨passed, left, isPassed, unreadIs, before⟩
  rw [List.nil_append] at isPassed
  subst isPassed
  rw [(scan_eq_found result).1] at unreadIs
  cases List.append_cancel_left unreadIs
  exact before

/-- What a scan takes off the unread text is made of the tag that it found. -/
theorem of_scan
    {unread skipped rest : Text}
    {piece : Piece}
    (result : scan delimiters unread = .found skipped piece rest) :
    TagsIn delimiters (skipped ++ piece.source) rest piece.tags
      (piece.delimitersAfter delimiters) := by
  rcases read_of_scan result with ⟨-, wellFormed, made⟩
  have nonempty := (scan_eq_found result).2
  suffices own : TagsIn delimiters piece.source rest piece.tags
      (piece.delimitersAfter delimiters) from (of_skipped result).append own
  rcases Lexeme.piece_eq_ok made with ⟨isPlain, isText, none⟩ | ⟨body, isTag⟩
  · rcases Lexeme.read_eq_plain isPlain with ⟨closed, isSource⟩
    have isRest : (piece.source ++ rest).drop piece.source.length = rest :=
      List.drop_left
    have noTags : piece.tags = [] := if_pos isText
    have sameAfter : piece.delimitersAfter delimiters = delimiters := by
      rw [Piece.delimitersAfter, none]
      rfl
    rw [noTags, sameAfter]
    generalize piece.source ++ rest = text at closed isSource isRest
    cases text with
    | nil => exact absurd isSource nonempty
    | cons character others =>
      rw [← isRest, isSource]
      exact readPlain closed
  · rw [isTag] at made wellFormed
    have isTags : piece.tags = [piece] := if_neg (Lexeme.kind_of_read isTag)
    have made' :
        (Lexeme.tag piece.kind piece.source body).piece [] = .ok piece := by
      rw [← made]
      cases piece.kind <;> rfl
    have last : TagsIn (piece.delimitersAfter delimiters) [] rest [] _ :=
      .done _ rest
    have whole := last.tag isTag wellFormed made'
    rw [isTags]
    rwa [List.append_nil] at whole

end TagsIn

/-! ## Surveys -/

variable
    {delimiters final : Delimiters}
    {unread : Text}
    {opened : List Piece}
    {tags : List Piece}

/-- Tags that close all sections make a survey without a fault. -/
theorem survey_of_tagsIn
    (made : TagsIn delimiters unread [] tags final)
    (balanced : nests opened tags = some []) :
    survey delimiters opened unread = (tags, none) := by
  generalize isEnd : ([] : Text) = after at made
  induction made generalizing opened with
  | done delimiters after =>
    cases balanced
    rw [survey_of_finished (scan_nil delimiters)]
    rfl
  | character closed further ih =>
    subst isEnd
    rw [List.append_nil] at closed
    rw [(passesText_survey _ _).cons closed]
    exact ih balanced rfl
  | malformed isRead isMalformed further ih =>
    subst isEnd
    rw [List.append_nil] at isRead
    rw [← isRead] at isMalformed
    rw [survey_of_malformed isMalformed]
    exact ih balanced rfl
  | @tag delimiters _ kind source body text _ piece tags isRead wellFormed made
      further ih =>
    subst isEnd
    rw [List.append_nil] at isRead
    simp only [nests] at balanced
    split at balanced
    · rename_i after opens
      rw [survey_of_tag isRead wellFormed made opens, ih balanced rfl]
    · cases balanced

/-! ## Sections -/

theorem openAfter_append
    {piece : Piece}
    {after : List Piece}
    (opens : piece.openAfter opened = .ok after)
    (outer : List Piece) :
    piece.openAfter (opened ++ outer) = .ok (after ++ outer) := by
  rcases openAfter_eq_ok opens with
    ⟨isOpener, rfl⟩ | ⟨isCloser, inner, rfl, same⟩ | ⟨notOpener, notCloser, rfl⟩
  · exact openAfter_of_opener isOpener _
  · exact openAfter_of_same isCloser same _
  · exact openAfter_of_other (Bool.eq_false_iff.1 notOpener) notCloser _

/--
What a survey, with the sections `opened` open inside that of the opener, makes
of the text in which the close tag is looked for.
-/
def Surveyed
    (opener : Piece)
    (delimiters : Delimiters)
    (opened : List Piece)
    (body unread : Text) : CloserScan → Prop
  | .faulty _ fault =>
    (survey delimiters (opened ++ [opener]) unread).2 = some fault
  | .found all closer after rest =>
    ∃ more tags,
      all = body ++ more ∧
      unread = more ++ (closer.source ++ rest) ∧
      TagsIn delimiters more (closer.source ++ rest) tags after ∧
      nests opened tags = some [] ∧
      survey delimiters (opened ++ [opener]) unread =
        (tags ++ closer :: (survey after [] rest).1, (survey after [] rest).2)

theorem Surveyed.of_found
    {opener piece : Piece}
    {opened after : List Piece}
    {body skipped rest : Text}
    {result : CloserScan}
    (isScan : scan delimiters unread = .found skipped piece rest)
    (opens : piece.openAfter opened = .ok after)
    (later :
      Surveyed opener (piece.delimitersAfter delimiters) after
        (body ++ (skipped ++ piece.source)) rest result) :
    Surveyed opener delimiters opened body unread result := by
  have step := survey_of_found isScan (openAfter_append opens [opener])
  cases result with
  | faulty before fault =>
    show (survey delimiters (opened ++ [opener]) unread).2 = some fault
    rw [step]
    exact later
  | found all closer final left =>
    rcases later with ⟨more, tags, rfl, rfl, made, balanced, surveyed⟩
    rcases scan_eq_found isScan with ⟨rfl, -⟩
    refine ⟨skipped ++ piece.source ++ more, piece.tags ++ tags, by simp,
      by simp, ?_, ?_, ?_⟩
    · exact (TagsIn.of_scan isScan).append made
    · rw [nests_append, nests_tags opens]
      exact balanced
    · rw [step, surveyed]
      simp

theorem surveyed_scanCloser
    {before body unread : Text}
    {opener : Piece}
    {pending : List Text}
    {opened : List Piece}
    (names : opened.map Piece.name = pending) :
    Surveyed opener delimiters opened body unread
      (scanCloser before opener delimiters pending body unread) := by
  fun_induction scanCloser before opener delimiters pending body unread
    generalizing opened with
  | case1 delimiters pending body unread skipped isScan =>
    show (survey delimiters (opened ++ [opener]) unread).2 = _
    rw [survey_of_finished isScan]
    simp
  | case2 delimiters pending body unread skipped fault isScan =>
    show (survey delimiters (opened ++ [opener]) unread).2 = _
    rw [survey_of_faulty isScan]
  | case3 delimiters pending body unread skipped piece rest isScan opens ih =>
    have other : piece.kind ≠ .setDelimiters :=
      TokenKind.ne_of_opensSection opens rfl
    have further :
        (piece :: opened).map Piece.name = piece.name :: pending := by
      rw [List.map_cons, names]
    apply Surveyed.of_found isScan (openAfter_of_opener opens opened)
    rw [delimitersAfter_of_scan isScan other]
    exact ih further
  | case4 delimiters body unread skipped piece rest isScan opens closes outer
      ih =>
    have other : piece.kind ≠ .setDelimiters :=
      ne_of_eq_of_ne closes TokenKind.noConfusion
    cases opened with
    | nil => cases names
    | cons inner opened =>
      simp only [List.map_cons, List.cons.injEq] at names
      apply Surveyed.of_found isScan (openAfter_of_same closes names.1 opened)
      rw [delimitersAfter_of_scan isScan other]
      exact ih names.2
  | case5 delimiters body unread skipped piece rest isScan opens closes inner
      outer different =>
    cases opened with
    | nil => cases names
    | cons innerPiece opened =>
      simp only [List.map_cons, List.cons.injEq] at names
      rw [← names.1] at different
      show (survey delimiters (innerPiece :: (opened ++ [opener])) unread).2 = _
      rw [survey_of_unbalanced isScan
          (openAfter_of_different closes different _)]
  | case6 delimiters body unread skipped piece rest isScan opens closes same =>
    cases List.map_eq_nil_iff.1 names
    have other : piece.kind ≠ .setDelimiters :=
      ne_of_eq_of_ne closes TokenKind.noConfusion
    have closed := openAfter_of_same closes same.symm []
    have isTags : piece.tags = [piece] :=
      if_neg (ne_of_eq_of_ne closes TokenKind.noConfusion)
    refine ⟨skipped, [], rfl, (scan_eq_found isScan).1, .of_skipped isScan, rfl,
      ?_⟩
    show survey delimiters [opener] unread = _
    rw [survey_of_found isScan closed, delimitersAfter_of_scan isScan other,
      isTags]
    rfl
  | case7 delimiters body unread skipped piece rest isScan opens closes
      different =>
    cases List.map_eq_nil_iff.1 names
    show (survey delimiters [opener] unread).2 = _
    rw [survey_of_unbalanced isScan
        (openAfter_of_different closes (Ne.symm different) [])]
  | case8 delimiters pending body unread skipped piece rest isScan opens closes
      ih =>
    exact Surveyed.of_found isScan (openAfter_of_other opens closes opened)
      (ih names)

/-! ## Blocks -/

variable
    {after : Delimiters}
    {skipped before rest : Text}
    {block : Block}
    {fault : Fault}

theorem survey_of_node_finished
    (result : scanNode delimiters unread = .finished) :
    survey delimiters [] unread = ([], none) := by
  rcases scan_of_scanNode_finished result with ⟨skipped, isScan⟩
  rw [survey_of_finished isScan]
  rfl

theorem survey_of_opener
    {opener : Piece}
    (isScan : scan delimiters unread = .found skipped opener rest)
    (opens : opener.kind.opensSection = true) :
    survey delimiters [] unread =
      (opener :: (survey delimiters [opener] rest).1,
        (survey delimiters [opener] rest).2) := by
  have isTag : opener.kind ≠ .text := TokenKind.ne_of_opensSection opens rfl
  have other : opener.kind ≠ .setDelimiters :=
    TokenKind.ne_of_opensSection opens rfl
  rw [survey_of_found isScan (openAfter_of_opener opens []),
    delimitersAfter_of_scan isScan other, Piece.tags, if_neg isTag]
  rfl

theorem survey_of_node_faulty
    (result : scanNode delimiters unread = .faulty before fault) :
    (survey delimiters [] unread).2 = some fault := by
  rcases scanNode_faulty_cases result with
    isScan | ⟨skipped, opener, rest, isScan, opens, found⟩ |
    ⟨closer, rest, isScan, closes, rfl⟩
  · rw [survey_of_faulty isScan]
  · have surveyed :
        Surveyed opener delimiters [] [] rest
          (scanCloser skipped opener delimiters [] [] rest) :=
      surveyed_scanCloser rfl
    rw [found] at surveyed
    rw [survey_of_opener isScan opens]
    exact surveyed
  · rw [survey_of_unbalanced isScan (openAfter_of_closer closes [])]

/-- The body of a section is made of tags that close all sections in it. -/
theorem survey_of_node_paired
    {opener closer : Piece}
    {body : Text}
    (result :
      scanNode delimiters unread =
        .found skipped (.paired opener body closer) after rest) :
    ∃ inner,
      TagsIn delimiters body (closer.source ++ rest) inner after ∧
      nests [] inner = some [] ∧
      survey delimiters [] unread =
        (opener :: (inner ++ closer :: (survey after [] rest).1),
          (survey after [] rest).2) := by
  rcases closer_of_scanNode result with ⟨left, isScan, opens, found⟩
  have surveyed :
      Surveyed opener delimiters [] [] left
        (scanCloser skipped opener delimiters [] [] left) :=
    surveyed_scanCloser rfl
  rw [found] at surveyed
  rcases surveyed with ⟨more, inner, rfl, -, made, balanced, later⟩
  have further : survey delimiters [opener] left = _ := later
  refine ⟨inner, made, balanced, ?_⟩
  rw [survey_of_opener isScan opens, further]

theorem survey_of_node_leaf
    {piece : Piece}
    (result :
      scanNode delimiters unread = .found skipped (.leaf piece) after rest) :
    TagsIn delimiters (skipped ++ piece.source) rest piece.tags after ∧
    survey delimiters [] unread =
      (piece.tags ++ (survey after [] rest).1, (survey after [] rest).2) := by
  rcases scanNode_eq_leaf result with ⟨isScan, opens, closes, rfl⟩
  exact ⟨.of_scan isScan,
    survey_of_found isScan (openAfter_of_other opens closes [])⟩

/-- After a block the survey goes on as if the text started there. -/
theorem survey_of_node_found
    (result : scanNode delimiters unread = .found skipped block after rest) :
    ∃ tags,
      after ∈ pairsOf delimiters tags ∧
      survey delimiters [] unread =
        (tags ++ (survey after [] rest).1, (survey after [] rest).2) := by
  cases block with
  | leaf piece =>
    rcases survey_of_node_leaf result with ⟨made, surveyed⟩
    exact ⟨piece.tags, made.final_mem, surveyed⟩
  | paired opener body closer =>
    rcases survey_of_node_paired result with ⟨inner, made, -, surveyed⟩
    refine ⟨opener :: (inner ++ [closer]), ?_, by rw [surveyed]; simp⟩
    apply pairsOf_subset _ delimiters after made.final_mem
    intro piece member
    simp [member]

end Mustache
