import Mustache.Proofs.Scan.Node
import Mustache.Proofs.Scan.Survey
import Mustache.Proofs.Text.Words

/-!
# Pairs that a tag can install

A pair that was read from a text is made of its two words
(`Delimiters.parse?_eq_some_iff`).  Words hold no white space, but they may hold
control characters, which are blanks to the line around a tag.  So a delimiter
may be blank, and a tag may start and end with blanks.

A line break is white space, though, and none of them is in a delimiter.  Since
a slash stands after the opening delimiter of a close tag, the first line of a
close tag is never blank (`lineAtStart?_of_closer`).
-/

namespace Mustache

namespace Text

theorem not_isLineBreak_of_not_isWhiteSpace
    {character : Char}
    (solid : isWhiteSpace character = false) :
    isLineBreak character = false := by
  apply Bool.eq_false_iff.2
  intro breaks
  rcases Bool.or_eq_true_iff.1 breaks with isFeed | isReturn
  · rw [beq_iff_eq.1 isFeed] at solid
    exact absurd solid (by decide)
  · rw [beq_iff_eq.1 isReturn] at solid
    exact absurd solid (by decide)

/--
A first line that holds a character that is neither blank nor a line break is
not blank.
-/
theorem lineAtStart?_of_unbroken
    {before : Text}
    {character : Char}
    (unbroken : ∀ other ∈ before, isLineBreak other = false)
    (solid : isBlank character = false)
    (rest : Text) :
    lineAtStart? (before ++ character :: rest) = none := by
  rcases inline_or_split before with
    inline | ⟨blanks, first, others, rfl, inline, notInline⟩
  · exact lineAtStart?_of_solid inline (not_isInlineBlank_of_not_isBlank solid)
      (not_isLineBreak_of_not_isBlank solid)
  · rw [List.append_assoc, List.cons_append]
    exact lineAtStart?_of_solid inline notInline (unbroken first (by simp))

end Text

namespace Delimiters

variable {delimiters : Delimiters} {text : Text}

/--
A text names a pair: it consists of the delimiters, two words without an equals
sign.
-/
structure NamedBy (delimiters : Delimiters) (text : Text) : Prop where
  twoWords : text.TwoWords delimiters.opening delimiters.closing
  noSign : '=' ∉ delimiters.opening ∧ '=' ∉ delimiters.closing

theorem parse?_eq_some_iff :
    parse? text = some delimiters ↔ delimiters.NamedBy text := by
  unfold parse?
  constructor
  · intro named
    split at named
    · rename_i opening closing words
      split at named
      · cases named
      · rename_i noSign
        cases named
        exact ⟨Text.words_eq_pair_iff.1 words, not_or.1 noSign⟩
    · cases named
  · intro named
    rw [named.twoWords.words_eq]
    exact if_neg (not_or.2 named.noSign)

/-- What is written of a pair that a text names is a text that names it. -/
theorem NamedBy.written (named : delimiters.NamedBy text) :
    delimiters.NamedBy delimiters.written where
  twoWords :=
    ⟨named.twoWords.first_isWord, named.twoWords.second_isWord, [], [' '], [],
      by simp [Delimiters.written], nofun,
      List.forall_mem_singleton.2 (by decide), List.cons_ne_nil _ _, nofun⟩
  noSign := named.noSign

/-- A pair that some text names. -/
def Accepted (delimiters : Delimiters) : Prop :=
  ∃ text, parse? text = some delimiters

theorem accepted_standard : standard.Accepted :=
  ⟨standard.written, by decide⟩

theorem Accepted.opening (accepted : delimiters.Accepted) :
    delimiters.opening.IsWord := by
  rcases accepted with ⟨text, named⟩
  exact (parse?_eq_some_iff.1 named).twoWords.first_isWord

end Delimiters

/-! ## Pairs that come into effect -/

variable
    {delimiters after : Delimiters}
    {unread skipped body rest : Text}
    {piece : Piece}

/-- A pair that a set-delimiter tag installs is one that its body names. -/
theorem Lexeme.accepted_of_piece
    {lexeme : Lexeme}
    {installed : Delimiters}
    (made : lexeme.piece unread = .ok piece)
    (installs : piece.delimiters = some installed) : installed.Accepted := by
  unfold Lexeme.piece at made
  split at made
  · cases made
    cases installs
  · rename_i source body
    split at made
    · cases made
    · rename_i pair named
      cases made
      cases installs
      unfold Reader.installed? at named
      split at named
      · exact ⟨_, named⟩
      · cases named
  · cases made
    cases installs
  · cases made

theorem accepted_of_scan
    (result : scan delimiters unread = .found skipped piece rest)
    (accepted : delimiters.Accepted) :
    (piece.delimitersAfter delimiters).Accepted := by
  rcases read_of_scan result with ⟨-, -, made⟩
  cases installs : piece.delimiters with
  | none => simpa [Piece.delimitersAfter, installs] using accepted
  | some installed =>
    simpa [Piece.delimitersAfter, installs] using
      Lexeme.accepted_of_piece made installs

/-- Every pair that comes into effect is one that a text can name. -/
theorem accepted_of_pairsIn
    (accepted : delimiters.Accepted)
    (template : Text) :
    ∀ pair ∈ pairsIn delimiters template, pair.Accepted := by
  suffices general :
      ∀ opened,
        ∀ pair ∈ pairsOf delimiters (survey delimiters opened template).1,
          pair.Accepted from general []
  intro opened
  fun_induction survey delimiters opened template with
  | case1 | case2 | case3 =>
    intro pair member
    rwa [List.mem_singleton.1 member]
  | case4 delimiters opened unread skipped piece rest isScan after opens ih =>
    intro pair member
    have further := ih (accepted_of_scan isScan accepted)
    rcases List.mem_cons.1 member with rfl | isInstalled
    · exact accepted
    · rcases List.mem_filterMap.1 isInstalled with ⟨tag, within, installs⟩
      rcases List.mem_append.1 within with isPiece | later
      · have same : tag = piece := by
          unfold Piece.tags at isPiece
          split at isPiece
          · cases isPiece
          · exact List.mem_singleton.1 isPiece
        have now := further _ List.mem_cons_self
        rwa [Piece.delimitersAfter, ← same, installs] at now
      · exact further pair
          (List.mem_cons_of_mem _ (List.mem_filterMap.2 ⟨tag, later, installs⟩))

/-! ## The first line of a close tag -/

theorem TokenKind.head_of_closer
    {modifier : Option Char}
    (closes : (ofModifier modifier).1 = .closer) :
    modifier = some '/' ∧ (ofModifier modifier).2 = true := by
  unfold ofModifier at closes ⊢
  split at closes <;> first | exact ⟨rfl, rfl⟩ | cases closes

theorem Lexeme.source_of_closer
    {source : Text}
    (isCloser : read delimiters unread = tag .closer source body) :
    ∃ more, source = delimiters.opening ++ '/' :: more := by
  unfold read at isCloser
  split at isCloser
  · rw [readTag_eq] at isCloser
    generalize unread.drop delimiters.opening.length = text at isCloser
    split at isCloser
    · cases isCloser
    · rename_i all inner found
      have closes : (TokenKind.ofModifier text.head?).1 = .closer := by
        injection isCloser
      have isSource :
          delimiters.opening ++ modifierOf text ++ all = source := by
        injection isCloser
      rcases TokenKind.head_of_closer closes with ⟨isSlash, isModifier⟩
      rcases List.head?_eq_some_iff.1 isSlash with ⟨others, rfl⟩
      refine ⟨all, ?_⟩
      rw [← isSource, modifierOf, if_pos isModifier]
      simp
  · cases isCloser

theorem source_of_closer
    (result : scan delimiters unread = .found skipped piece rest)
    (closes : piece.kind = .closer) :
    ∃ more, piece.source = delimiters.opening ++ '/' :: more := by
  rcases read_of_scan result with ⟨-, -, made⟩
  rcases Lexeme.piece_eq_ok made with ⟨-, isText, -⟩ | ⟨body, isRead⟩
  · rw [closes] at isText
    cases isText
  · rw [closes] at isRead
    exact Lexeme.source_of_closer isRead

/-- No delimiter breaks the line, and a slash is no blank. -/
theorem lineAtStart?_of_closer
    (result : scan delimiters unread = .found skipped piece rest)
    (closes : piece.kind = .closer)
    (accepted : delimiters.Accepted) :
    piece.source.lineAtStart? = none := by
  rcases source_of_closer result closes with ⟨more, isSource⟩
  rw [isSource]
  apply Text.lineAtStart?_of_unbroken _ (by decide)
  intro character member
  exact Text.not_isLineBreak_of_not_isWhiteSpace
    (accepted.opening.solid character member)

theorem accepted_of_scanCloser
    {before all : Text}
    {opener closer : Piece}
    {pending : List Text}
    (result :
      scanCloser before opener delimiters pending body unread =
        .found all closer after rest)
    (accepted : delimiters.Accepted) :
    after.Accepted ∧ closer.source.lineAtStart? = none := by
  fun_induction scanCloser before opener delimiters pending body unread with
  | case1 | case2 | case5 | case7 => cases result
  | case3 _ _ _ _ _ _ _ _ _ ih => exact ih result accepted
  | case4 _ _ _ _ _ _ _ _ _ _ ih => exact ih result accepted
  | case6 delimiters body unread skipped piece left isScan opens closes named =>
    cases result
    exact ⟨accepted, lineAtStart?_of_closer isScan closes accepted⟩
  | case8 _ _ _ _ _ _ _ isScan _ _ ih =>
    exact ih result (accepted_of_scan isScan accepted)

/--
What is known of the pair after a block, and of the close tag of a section.
-/
theorem accepted_of_scanNode
    {block : Block}
    (result : scanNode delimiters unread = .found skipped block after rest)
    (accepted : delimiters.Accepted) :
    after.Accepted ∧
    ∀ opener body closer,
      block = .paired opener body closer →
      closer.source.lineAtStart? = none := by
  cases block with
  | leaf piece =>
    rcases scanNode_eq_leaf result with ⟨isScan, -, -, isAfter⟩
    rw [isAfter]
    refine ⟨accepted_of_scan isScan accepted, ?_⟩
    rintro _ _ _ ⟨⟩
  | paired opener body closer =>
    rcases closer_of_scanNode result with ⟨left, -, -, found⟩
    have ends := accepted_of_scanCloser found accepted
    refine ⟨ends.1, ?_⟩
    rintro _ _ _ ⟨⟩
    exact ends.2

end Mustache
