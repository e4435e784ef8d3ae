import Mustache.Proofs.Scan.Extension
import Mustache.Proofs.Scan.Guard

/-!
# Scanning up to a sign

A sign at the end of a text that is no part of the delimiters belongs to no tag.
What a scan finds before it is found before any other sign, too: the same pieces
and the same blocks, and the last stretch of text with the one sign for the
other (`scan_resign`, `scanNode_resign`).  The other sign must not be a brace,
which a triple tag would look at.
-/

namespace Mustache

/-- A character is a part of neither delimiter. -/
def Delimiters.Lacks (delimiters : Delimiters) (sign : Char) : Prop :=
  sign ∉ delimiters.opening ++ delimiters.closing

instance
    (delimiters : Delimiters)
    (sign : Char) : Decidable (delimiters.Lacks sign) :=
  inferInstanceAs (Decidable (_ ∉ _))

theorem Delimiters.Lacks.opening
    {delimiters : Delimiters}
    {sign : Char}
    (lacks : delimiters.Lacks sign) :
    sign ∉ delimiters.opening :=
  fun member => lacks (List.mem_append_left _ member)

theorem Delimiters.Lacks.closing
    {delimiters : Delimiters}
    {sign : Char}
    (lacks : delimiters.Lacks sign) :
    sign ∉ delimiters.closing :=
  fun member => lacks (List.mem_append_right _ member)

variable
    {delimiters after : Delimiters}
    {sign other : Char}
    {text skipped rest : Text}
    {piece : Piece}

/-! ## Stretches of text -/

theorem starts_sign_iff
    {pattern : Text}
    (absent : sign ∉ pattern)
    (text : Text) :
    pattern <+: text ++ [sign] ↔ pattern <+: text :=
  ⟨starts_of_sign absent,
    fun starts => starts.trans (List.prefix_append text [sign])⟩

theorem opensAt_sign
    (lacks : delimiters.Lacks sign)
    (text : Text) :
    delimiters.opensAt (text ++ [sign]) = delimiters.opensAt text := by
  rw [Bool.eq_iff_iff, opensAt_iff, opensAt_iff, starts_sign_iff lacks.opening]

theorem Text.upTo_sign
    {pattern : Text}
    (nonempty : pattern ≠ [])
    (absent : sign ∉ pattern)
    (text : Text) :
    upTo pattern [] (text ++ [sign]) =
      if upTo pattern [] text = text then
        text ++ [sign]
      else
        upTo pattern [] text := by
  induction text with
  | nil =>
    have closed : ¬pattern <+: [sign] := by
      intro starts
      have short : pattern <+: [] := starts_of_sign absent starts
      exact nonempty (List.prefix_nil.1 short)
    rw [List.nil_append, upTo_cons_of_not_starts closed]
    rfl
  | cons character text ih =>
    have same :
        pattern <+: character :: (text ++ [sign]) ↔
          pattern <+: character :: text :=
      starts_sign_iff absent (character :: text)
    rw [List.cons_append]
    by_cases starts : pattern <+: character :: text
    · rw [upTo_nil_of_starts starts, upTo_nil_of_starts (same.2 starts)]
      rfl
    · rw [upTo_cons_of_not_starts starts,
        upTo_cons_of_not_starts (starts ∘ same.1), ih]
      by_cases whole : upTo pattern [] text = text
      · simp [whole]
      · simp [whole]

/--
A stretch of text goes on to the sign, or it ends before it whatever the sign
is.
-/
theorem Lexeme.readPlain_sign
    {opening : Text}
    (absent : sign ∉ opening)
    (text : Text) :
    readPlain opening (text ++ [sign]) =
      if readPlain opening text = text then
        text ++ [sign]
      else
        readPlain opening text := by
  cases text with
  | nil =>
    simp [readPlain, Text.upTo]
  | cons character text =>
    rw [List.cons_append, readPlain_cons, readPlain_cons]
    by_cases empty : opening = []
    · simp [empty]
    · have notEmpty : ¬opening.isEmpty = true := by simpa using empty
      rw [if_neg notEmpty, if_neg notEmpty, Text.upTo_sign empty absent]
      by_cases whole : Text.upTo opening [] text = text
      · simp [whole]
      · simp [whole]

/-! ## Lexemes -/

/-- A tag ends before the sign, whatever the sign is. -/
theorem Lexeme.read_tag_resign
    {kind : TokenKind}
    {source body : Text}
    (lacks : delimiters.Lacks sign)
    (isRead : read delimiters (text ++ [sign]) = .tag kind source body) :
    ∃ left,
      text = source ++ left ∧
      ∀ other,
        other ≠ '}' →
        read delimiters (source ++ (left ++ [other])) =
          .tag kind source body := by
  rcases read_eq_tag isRead with
    ⟨middle, behind, -, closing, isSource, isText, elsewhere⟩
  rcases List.eq_nil_or_concat behind with rfl | ⟨left, last, rfl⟩
  · have isLast : some sign = some (delimiters.closing.getLast closing) := by
      rw [← List.getLast?_concat (l := text), isText, isSource, List.append_nil,
        ← List.append_assoc, List.getLast?_append,
        List.getLast?_eq_some_getLast closing]
      rfl
    have member := List.getLast_mem closing
    rw [← Option.some.inj isLast] at member
    exact absurd member lacks.closing
  · rw [List.concat_eq_append] at isText elsewhere
    rw [← List.append_assoc] at isText
    rcases List.append_inj' isText rfl with ⟨rfl, -⟩
    refine ⟨left, rfl, ?_⟩
    intro other notBrace
    apply elsewhere
    cases left with
    | nil =>
      intro isBrace
      exact absurd (Option.some.inj isBrace) notBrace
    | cons first left => exact id

/--
Malformed tags are passed over before any sign, and the sign is still there
behind them.
-/
theorem Lexeme.next_resign
    {before unread all : Text}
    {result : Option Lexeme}
    (lacks : delimiters.Lacks sign)
    (isUnread : unread = text ++ [sign])
    (found : next delimiters before unread = (all, result)) :
    ∃ passed left,
      all = before ++ passed ∧
      text = passed ++ left ∧
      result = some (read delimiters (left ++ [sign])) ∧
      ∀ other,
        other ≠ '}' →
        next delimiters before (text ++ [other]) =
          next delimiters all (left ++ [other]) := by
  fun_induction next delimiters before unread generalizing text with
  | case1 => simp at isUnread
  | case2 before unread nonempty source isMalformed ih =>
    subst isUnread
    rcases malformed?_eq_some isMalformed with ⟨body, isTag, isMore⟩
    rcases read_tag_resign lacks isTag with ⟨left, rfl, elsewhere⟩
    rw [List.append_assoc, List.drop_left] at ih
    rcases ih rfl (by simpa using found) with
      ⟨passed, left, rfl, rfl, isResult, later⟩
    refine ⟨source ++ passed, left, by simp, by simp, isResult, ?_⟩
    intro other notBrace
    have again := elsewhere other notBrace
    rw [isTag, ← again] at isMalformed
    rw [List.append_assoc source, next_of_malformed isMalformed]
    exact later other notBrace
  | case3 before unread nonempty wellFormed =>
    cases found
    subst isUnread
    exact ⟨[], text, by simp, rfl, rfl, fun _ _ => rfl⟩

/-! ## Pieces -/

theorem scan_of_next
    {unread : Text}
    {lexeme : Lexeme}
    (isNext : Lexeme.next delimiters [] unread = (skipped, some lexeme))
    (made : lexeme.piece (unread.drop skipped.length) = .ok piece) :
    scan delimiters unread =
      .found skipped piece (unread.drop (skipped ++ piece.source).length) := by
  simp only [scan, isNext, made]

/--
A piece that is found before one sign is found before any other, or it ends in
the sign.
-/
theorem scan_resign
    (lacks : delimiters.Lacks sign)
    (lacksOther : delimiters.Lacks other)
    (notBrace : other ≠ '}')
    (result : scan delimiters (text ++ [sign]) = .found skipped piece rest) :
    (∃ left,
      rest = left ++ [sign] ∧
      scan delimiters (text ++ [other]) =
        .found skipped piece (left ++ [other])) ∨
    rest = [] ∧
      piece.kind = .text ∧
      ∃ within,
        text = skipped ++ within ∧
        piece.source = within ++ [sign] ∧
        scan delimiters (text ++ [other]) =
          .found skipped ⟨.text, within ++ [other], within ++ [other], none⟩
            [] := by
  rcases read_of_scan result with ⟨isNext, wellFormed, made⟩
  have isUnread := (scan_eq_found result).1
  rcases Lexeme.next_resign lacks rfl isNext with
    ⟨passed, left, isPassed, rfl, -, later⟩
  rw [List.nil_append] at isPassed
  subst isPassed
  rw [List.append_assoc] at isUnread
  have isLeft := List.append_cancel_left isUnread
  rw [← isLeft] at wellFormed made
  have isNext' := later other notBrace
  have nonempty : left ++ [other] ≠ [] := by simp
  rcases Lexeme.piece_eq_ok made with ⟨isPlain, isText, -⟩ | ⟨body, isTag⟩
  · rcases Lexeme.read_eq_plain isPlain with ⟨closed, isSource⟩
    have closed' : delimiters.opensAt (left ++ [other]) = false := by
      rw [opensAt_sign lacksOther, ← opensAt_sign lacks]
      exact closed
    have isPlain' : Lexeme.read delimiters (left ++ [other]) =
        .plain (Lexeme.readPlain delimiters.opening (left ++ [other])) :=
      if_neg (Bool.eq_false_iff.1 closed')
    rw [Lexeme.next_of_wellFormed nonempty (by rw [isPlain']; rfl), isPlain',
      Lexeme.readPlain_sign lacksOther.opening] at isNext'
    rw [Lexeme.readPlain_sign lacks.opening] at isSource
    by_cases whole : Lexeme.readPlain delimiters.opening left = left
    · rw [if_pos whole] at isNext' isSource
      refine .inr ⟨?_, isText, left, rfl, isSource, ?_⟩
      · rw [isSource] at isLeft
        exact List.append_right_eq_self.1 isLeft.symm
      · rw [scan_of_next isNext' rfl]
        simp
    · rw [if_neg whole] at isNext' isSource
      rcases Lexeme.readPlain_isPrefix delimiters.opening left with
        ⟨more, isStretch⟩
      rw [← isSource] at isNext' isStretch
      subst isStretch
      rw [isPlain] at made
      rw [List.append_assoc] at isLeft
      refine .inl ⟨more, (List.append_cancel_left isLeft).symm, ?_⟩
      rw [scan_of_next isNext' made]
      simp
  · rcases Lexeme.read_tag_resign lacks isTag with ⟨more, rfl, elsewhere⟩
    have isTag' := elsewhere other notBrace
    rw [← List.append_assoc] at isTag'
    rw [isTag] at wellFormed made
    rw [Lexeme.next_of_wellFormed nonempty (by rw [isTag']; exact wellFormed),
      isTag'] at isNext'
    rw [List.append_assoc] at isLeft
    refine .inl ⟨more, (List.append_cancel_left isLeft).symm, ?_⟩
    rw [scan_of_next isNext' ((Lexeme.piece_tag_congr ..).trans made)]
    simp

theorem scan_resign_of_more
    (lacks : delimiters.Lacks sign)
    (lacksOther : delimiters.Lacks other)
    (notBrace : other ≠ '}')
    (result : scan delimiters (text ++ [sign]) = .found skipped piece rest)
    (more : rest = [] → piece.kind ≠ .text) :
    ∃ left,
      rest = left ++ [sign] ∧
      scan delimiters (text ++ [other]) =
        .found skipped piece (left ++ [other]) := by
  rcases scan_resign lacks lacksOther notBrace result with
    found | ⟨nothing, isText, -⟩
  · exact found
  · exact absurd isText (more nothing)

/-! ## Blocks -/

theorem pairsOf_of_found
    {opened openedAfter : List Piece}
    (result : scan delimiters text = .found skipped piece rest)
    (opens : piece.openAfter opened = .ok openedAfter) :
    ∀ pair ∈ pairsOf (piece.delimitersAfter delimiters)
        (survey (piece.delimitersAfter delimiters) openedAfter rest).1,
      pair ∈ pairsOf delimiters (survey delimiters opened text).1 := by
  rw [survey_of_found result opens]
  exact pairsOf_append (TagsIn.of_scan result).final_mem _

theorem ne_nil_of_scanCloser
    {before body all : Text}
    {opener closer : Piece}
    {pending : List Text}
    (result :
      scanCloser before opener delimiters pending body text =
        .found all closer after rest) :
    text ≠ [] := by
  rcases scanCloser_eq_found result with ⟨more, -, isText, -, encloses⟩
  have longer := encloses.two_le_length
  rintro rfl
  have nothing :=
    (List.append_eq_nil_iff.1 (List.append_eq_nil_iff.1 isText.symm).2).1
  rw [nothing] at longer
  cases longer

/-- The close tag of a section is found before any other sign, too. -/
theorem scanCloser_resign
    {before body unread all : Text}
    {opener closer : Piece}
    {pending : List Text}
    {opened : List Piece}
    (names : opened.map Piece.name = pending)
    (isUnread : unread = text ++ [sign])
    (notBrace : other ≠ '}')
    (lacks :
      ∀ pair ∈ pairsOf delimiters
          (survey delimiters (opened ++ [opener]) unread).1,
        pair.Lacks sign ∧ pair.Lacks other)
    (result :
      scanCloser before opener delimiters pending body unread =
        .found all closer after rest) :
    ∃ left,
      rest = left ++ [sign] ∧
      scanCloser before opener delimiters pending body (text ++ [other]) =
        .found all closer after (left ++ [other]) := by
  fun_induction scanCloser before opener delimiters pending body unread
    generalizing text opened with
  | case1 | case2 | case5 | case7 => cases result
  | case3 delimiters pending body unread skipped piece behind isScan opens ih =>
    subst isUnread
    rcases lacks delimiters List.mem_cons_self with ⟨here, hereOther⟩
    rcases scan_resign_of_more here hereOther notBrace isScan
        (fun nothing => absurd nothing (ne_nil_of_scanCloser result)) with
      ⟨left, isLeft, again⟩
    have handed :=
      pairsOf_of_found isScan (openAfter_of_opener opens (opened ++ [opener]))
    rw [delimitersAfter_of_scan isScan (TokenKind.ne_of_opensSection opens rfl)]
      at handed
    rw [scanCloser_of_found again, if_pos opens]
    have named : (piece :: opened).map Piece.name = piece.name :: pending := by
      rw [List.map_cons, names]
    exact ih named isLeft (fun pair member => lacks pair (handed pair member))
      result
  | case4 delimiters body unread skipped piece behind isScan opens closes outer
      ih =>
    subst isUnread
    rcases lacks delimiters List.mem_cons_self with ⟨here, hereOther⟩
    rcases scan_resign_of_more here hereOther notBrace isScan
        (fun nothing => absurd nothing (ne_nil_of_scanCloser result)) with
      ⟨left, isLeft, again⟩
    cases opened with
    | nil => cases names
    | cons inner opened =>
      simp only [List.map_cons, List.cons.injEq] at names
      have handed :=
        pairsOf_of_found isScan
          (openAfter_of_same closes names.1 (opened ++ [opener]))
      rw [delimitersAfter_of_scan isScan
          (ne_of_eq_of_ne closes TokenKind.noConfusion)] at handed
      rw [scanCloser_of_found again, if_neg opens, if_pos closes]
      simp only [if_true]
      exact ih names.2 isLeft
        (fun pair member => lacks pair (handed pair member)) result
  | case6 delimiters body unread skipped piece behind isScan opens closes
      named =>
    subst isUnread
    rcases lacks delimiters List.mem_cons_self with ⟨here, hereOther⟩
    rcases scan_resign_of_more here hereOther notBrace isScan
        (fun _ => ne_of_eq_of_ne closes TokenKind.noConfusion) with
      ⟨left, isLeft, again⟩
    cases result
    refine ⟨left, isLeft, ?_⟩
    rw [scanCloser_of_found again, if_neg opens, if_pos closes]
    simp only [named, if_true]
  | case8 delimiters pending body unread skipped piece behind isScan opens
      closes ih =>
    subst isUnread
    rcases lacks delimiters List.mem_cons_self with ⟨here, hereOther⟩
    rcases scan_resign_of_more here hereOther notBrace isScan
        (fun nothing => absurd nothing (ne_nil_of_scanCloser result)) with
      ⟨left, isLeft, again⟩
    have handed :=
      pairsOf_of_found isScan
        (openAfter_of_other opens closes (opened ++ [opener]))
    rw [scanCloser_of_found again, if_neg opens, if_neg closes]
    exact ih names isLeft (fun pair member => lacks pair (handed pair member))
      result

/-- A text that ends in a sign is not read to its end without a block. -/
theorem scanNode_sign_ne_finished
    (lacks : delimiters.Lacks sign)
    (text : Text) :
    scanNode delimiters (text ++ [sign]) ≠ .finished := by
  intro result
  rcases scan_of_scanNode_finished result with ⟨skipped, finished⟩
  rcases Lexeme.next_resign lacks rfl (next_of_scan_finished finished) with
    ⟨_, _, -, -, isNone, -⟩
  cases isNone

/--
A block that is found before one sign is found before any other, or it is the
last text.
-/
theorem scanNode_resign
    {block : Block}
    (notBrace : other ≠ '}')
    (lacks :
      ∀ pair ∈ pairsIn delimiters (text ++ [sign]),
        pair.Lacks sign ∧ pair.Lacks other)
    (result :
      scanNode delimiters (text ++ [sign]) = .found skipped block after rest) :
    (∃ left,
      rest = left ++ [sign] ∧
      scanNode delimiters (text ++ [other]) =
        .found skipped block after (left ++ [other])) ∨
    ∃ last last',
      scan delimiters (text ++ [sign]) = .found skipped last [] ∧
      scan delimiters (text ++ [other]) = .found skipped last' [] ∧
      last.kind = .text ∧
      last'.kind = .text := by
  rcases lacks delimiters List.mem_cons_self with ⟨here, hereOther⟩
  cases block with
  | leaf piece =>
    rcases scanNode_eq_leaf result with ⟨isScan, opens, closes, rfl⟩
    rcases scan_resign here hereOther notBrace isScan with
      ⟨left, isLeft, again⟩ | ⟨rfl, isText, _, -, -, again⟩
    · refine .inl ⟨left, isLeft, ?_⟩
      simp only [scanNode, again, if_neg opens, if_neg closes]
    · exact .inr ⟨piece, _, isScan, again, isText, rfl⟩
  | paired opener body closer =>
    rcases closer_of_scanNode result with ⟨behind, isScan, opens, found⟩
    rcases scan_resign_of_more here hereOther notBrace isScan
      (fun _ => TokenKind.ne_of_opensSection opens rfl) with ⟨left, rfl, again⟩
    have handed := pairsOf_of_found isScan (openAfter_of_opener opens [])
    rw [delimitersAfter_of_scan isScan (TokenKind.ne_of_opensSection opens rfl)]
      at handed
    have named : ([] : List Piece).map Piece.name = [] := List.map_nil
    rcases scanCloser_resign named rfl notBrace
        (fun pair member => lacks pair (handed pair member)) found with
      ⟨more, isRest, foundAgain⟩
    refine .inl ⟨more, isRest, ?_⟩
    simp only [scanNode, again, if_pos opens, foundAgain]

end Mustache
