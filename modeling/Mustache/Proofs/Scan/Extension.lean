import Mustache.Proofs.Scan.Node
import Mustache.Proofs.Scan.Passing
import Mustache.Proofs.Token.Shape

/-!
# Scanning with more text behind

What a scan finds does not depend on the end of the text, as long as the text
goes on behind it.  A tag ends with its closing delimiter, and the one character
more that a triple tag looks at is there.  A stretch of text ends where an
opening delimiter stands.  So with more text behind, the same pieces and the
same blocks are found (`scan_append`, `scanNode_append`).

Only the last piece of a text may see what is put behind it.  A text that ends
in text has no tag there, and neither has what is left of it behind one of its
blocks (`EndsInText`).
-/

namespace Mustache

variable
    {delimiters after final : Delimiters}
    {text skipped rest : Text}
    {piece : Piece}
    {block : Block}

/-! ## Stretches of text -/

theorem Text.upTo_append
    {pattern text rest : Text}
    (isText : text = upTo pattern [] text ++ rest)
    (starts : pattern <+: rest)
    (other : Text) :
    upTo pattern [] (text ++ other) = upTo pattern [] text := by
  induction text with
  | nil =>
    have nothing : rest = [] := (List.append_eq_nil_iff.1 isText.symm).2
    rw [nothing, List.prefix_nil] at starts
    rw [starts, upTo_nil_of_starts List.nil_prefix]
    rfl
  | cons character text ih =>
    by_cases here : pattern <+: character :: text
    · rw [upTo_nil_of_starts here,
        upTo_nil_of_starts (here.trans (List.prefix_append _ other))]
    · rw [upTo_cons_of_not_starts here] at isText ⊢
      have isRest : text = upTo pattern [] text ++ rest :=
        List.tail_eq_of_cons_eq isText
      have further : ¬pattern <+: character :: (text ++ other) := by
        intro reaches
        apply here
        have fits : pattern.length ≤ (character :: text).length := by
          rw [isText, List.length_append]
          exact Nat.le_add_left_of_le starts.length_le
        exact List.prefix_of_prefix_length_le reaches
          (List.prefix_append _ other) fits
      rw [List.cons_append, upTo_cons_of_not_starts further, ih isRest]

theorem Lexeme.readPlain_append
    {opening unread rest : Text}
    (isUnread : unread = readPlain opening unread ++ rest)
    (starts : opening <+: rest)
    (nonempty : opening ≠ [])
    (other : Text) :
    readPlain opening (unread ++ other) = readPlain opening unread := by
  cases unread with
  | nil =>
    have nothing : rest = [] := (List.append_eq_nil_iff.1 isUnread.symm).2
    rw [nothing, List.prefix_nil] at starts
    exact absurd starts nonempty
  | cons character text =>
    have notEmpty : ¬opening.isEmpty = true := by simpa using nonempty
    rw [readPlain_cons, if_neg notEmpty] at isUnread
    have isText : text = Text.upTo opening [] text ++ rest :=
      List.tail_eq_of_cons_eq isUnread
    rw [List.cons_append, readPlain_cons, readPlain_cons, if_neg notEmpty,
      if_neg notEmpty, Text.upTo_append isText starts]

/--
A stretch of text is its first character, and the stretch at the next one if
there is one.
-/
theorem Lexeme.readPlain_cons_eq
    (delimiters : Delimiters)
    (character : Char)
    (rest : Text) :
    readPlain delimiters.opening (character :: rest) = [character] ∨
    ∃ next more,
      rest = next :: more ∧
      delimiters.opensAt (next :: more) = false ∧
      readPlain delimiters.opening (character :: rest) =
        character :: readPlain delimiters.opening (next :: more) := by
  cases rest with
  | nil => exact .inl (by simp [readPlain_cons, Text.upTo])
  | cons next more =>
    rw [readPlain_cons]
    by_cases empty : delimiters.opening = []
    · refine .inr ⟨next, more, rfl, ?_, by simp [readPlain_cons, empty]⟩
      simp [Delimiters.opensAt, Delimiters.canMarkTags, empty]
    · have notEmpty : ¬delimiters.opening.isEmpty = true := by simpa using empty
      rw [if_neg notEmpty]
      by_cases starts : delimiters.opening <+: next :: more
      · exact .inl (by rw [Text.upTo_nil_of_starts starts])
      · refine .inr ⟨next, more, rfl, ?_, ?_⟩
        · exact Bool.eq_false_iff.2 fun opens =>
            starts (opensAt_iff.1 opens).2.2
        · rw [Text.upTo_cons_of_not_starts starts, readPlain_cons,
            if_neg notEmpty]

/-! ## Lexemes -/

/-- A tag with something behind it is read again with more text behind that. -/
theorem Lexeme.read_append_tag
    {kind : TokenKind}
    {source body : Text}
    (isRead : read delimiters (source ++ rest) = .tag kind source body)
    (more : rest ≠ [])
    (other : Text) :
    read delimiters (source ++ (rest ++ other)) = .tag kind source body := by
  rcases read_eq_tag isRead with ⟨_, left, -, -, -, isUnread, elsewhere⟩
  rcases List.append_cancel_left isUnread with rfl
  apply elsewhere
  cases rest with
  | nil => exact absurd rfl more
  | cons first rest => exact id

/-- So is a stretch of text. -/
theorem Lexeme.read_append_plain
    {source : Text}
    (isRead : read delimiters (source ++ rest) = .plain source)
    (more : rest ≠ [])
    (other : Text) :
    read delimiters (source ++ (rest ++ other)) = .plain source := by
  rcases read_eq_plain isRead with ⟨closed, isSource⟩
  rcases readPlain_ends delimiters.opening (source ++ rest) with
    ⟨left, isUnread, ends, -⟩
  rw [← isSource] at isUnread
  rcases List.append_cancel_left isUnread with rfl
  rcases ends.resolve_left more with ⟨nonempty, starts⟩
  have fits : delimiters.opening.length ≤ (source ++ rest).length := by
    rw [List.length_append]
    exact Nat.le_add_left_of_le starts.length_le
  have same := isPrefixOf_append_congr fits other []
  rw [List.append_nil] at same
  rw [← List.append_assoc, read, same, if_neg (Bool.eq_false_iff.1 closed)]
  rw [readPlain_append (congrArg (· ++ rest) isSource) starts nonempty,
    ← isSource]

/-- Malformed tags are passed over with more text behind, too. -/
theorem Lexeme.next_append
    {before unread all : Text}
    {lexeme : Lexeme}
    (found : next delimiters before unread = (all, some lexeme)) :
    ∃ skipped left,
      all = before ++ skipped ∧
      unread = skipped ++ left ∧
      left ≠ [] ∧
      ∀ other : Text,
        next delimiters before (unread ++ other) =
          next delimiters all (left ++ other) := by
  fun_induction next delimiters before unread with
  | case1 => cases found
  | case2 before unread nonempty source isMalformed ih =>
    have isUnread := malformed?_isPrefix isMalformed
    generalize unread.drop source.length = text at isUnread ih found
    subst isUnread
    rcases ih found with ⟨skipped, left, rfl, rfl, more, later⟩
    refine ⟨source ++ skipped, left, by simp, by simp, more, ?_⟩
    intro other
    rcases malformed?_eq_some isMalformed with ⟨body, isTag, -⟩
    have again := read_append_tag isTag (by simp [more]) other
    rw [isTag, ← again] at isMalformed
    rw [List.append_assoc, next_of_malformed isMalformed]
    exact later other
  | case3 before unread nonempty wellFormed =>
    cases found
    exact ⟨[], unread, by simp, rfl, nonempty, fun _ => rfl⟩

/-! ## Pieces -/

/-- The result of a scan with some text before it that is passed over. -/
def Scan.behind (passed : Text) : Scan → Scan
  | finished skipped => finished (passed ++ skipped)
  | faulty skipped fault => faulty (passed ++ skipped) fault
  | found skipped piece rest => found (passed ++ skipped) piece rest

/--
The malformed tags before a piece are passed over whatever comes behind it.
-/
theorem scan_append_eq_behind
    (result : scan delimiters text = .found skipped piece rest)
    (other : Text) :
    scan delimiters (text ++ other) =
      (scan delimiters (piece.source ++ (rest ++ other))).behind skipped := by
  rcases Lexeme.next_append (read_of_scan result).1 with
    ⟨passed, left, isPassed, isText, -, later⟩
  rw [List.nil_append] at isPassed
  subst isPassed
  rcases List.append_cancel_left
      (isText.symm.trans (scan_eq_found result).1) with rfl
  have isNext :=
    (later other).trans (Lexeme.next_eq_append delimiters skipped _)
  simp only [isText, List.append_assoc] at isNext ⊢
  simp only [scan, isNext]
  rcases Lexeme.next delimiters [] (piece.source ++ (rest ++ other)) with
    ⟨more, _ | lexeme⟩
  · rfl
  · simp only [List.length_append, ← List.drop_drop, List.drop_left]
    cases lexeme.piece ((piece.source ++ (rest ++ other)).drop more.length) <;>
      rfl

/-- Text at the head is what is found. -/
theorem scan_of_plain
    (nonempty : piece.source ≠ [])
    (isRead :
      Lexeme.read delimiters (piece.source ++ rest) = .plain piece.source)
    {unread : Text}
    (made : (Lexeme.plain piece.source).piece unread = .ok piece) :
    scan delimiters (piece.source ++ rest) = .found [] piece rest := by
  have wellFormed :
      (Lexeme.read delimiters (piece.source ++ rest)).malformed? = none := by
    rw [isRead]
    rfl
  have anywhere (text : Text) :
      (Lexeme.plain piece.source).piece text = .ok piece :=
    made
  rw [scan, Lexeme.next_of_wellFormed (by simp [nonempty]) wellFormed, isRead]
  simp only [anywhere, List.nil_append, List.drop_left]

/--
A piece is found with more text behind, too, if the text goes on behind it.
-/
theorem scan_append
    (result : scan delimiters text = .found skipped piece rest)
    (more : rest ≠ [])
    (other : Text) :
    scan delimiters (text ++ other) = .found skipped piece (rest ++ other) := by
  rcases read_of_scan result with ⟨-, wellFormed, made⟩
  suffices own : scan delimiters (piece.source ++ (rest ++ other)) =
      .found [] piece (rest ++ other) by
    rw [scan_append_eq_behind result, own, Scan.behind, List.append_nil]
  rcases Lexeme.piece_eq_ok made with ⟨isPlain, -, -⟩ | ⟨body, isTag⟩
  · rw [isPlain] at made
    have nonempty := (scan_eq_found result).2
    exact scan_of_plain nonempty (Lexeme.read_append_plain isPlain more other)
      made
  · rw [isTag] at made wellFormed
    rw [Lexeme.piece_tag_congr] at made
    exact scan_of_tag (Lexeme.read_append_tag isTag more other) wellFormed made

/-! ## Blocks -/

theorem scanCloser_of_found
    (result : scan delimiters text = .found skipped piece rest)
    (before : Text)
    (opener : Piece)
    (pending : List Text)
    (body : Text) :
    scanCloser before opener delimiters pending body text =
      if piece.kind.opensSection then
        scanCloser before opener delimiters (piece.name :: pending)
          (body ++ (skipped ++ piece.source)) rest
      else if piece.kind = .closer then
        match pending with
        | inner :: outer =>
          if inner = piece.name then
            scanCloser before opener delimiters outer
              (body ++ (skipped ++ piece.source)) rest
          else
            .faulty (before ++ (opener.source ++ (body ++ skipped)))
              (.unbalancedSection piece.source)
        | [] =>
          if piece.name = opener.name then
            .found (body ++ skipped) piece delimiters rest
          else
            .faulty (before ++ (opener.source ++ (body ++ skipped)))
              (.unbalancedSection piece.source)
      else
        scanCloser before opener (piece.delimitersAfter delimiters) pending
          (body ++ (skipped ++ piece.source)) rest := by
  rw [scanCloser]
  split
  · simp_all
  · simp_all
  · rename_i isScan
    rw [result] at isScan
    cases isScan
    cases pending <;> rfl

/-- The close tag of a section is found with more text behind, too. -/
theorem scanCloser_append
    {before body all : Text}
    {opener closer : Piece}
    {pending : List Text}
    (result :
      scanCloser before opener delimiters pending body text =
        .found all closer after rest)
    (more : rest ≠ [])
    (other : Text) :
    scanCloser before opener delimiters pending body (text ++ other) =
      .found all closer after (rest ++ other) := by
  have goesOn {before body left : Text} {opener : Piece}
      {delimiters : Delimiters} {pending : List Text}
      (result :
        scanCloser before opener delimiters pending body left =
          .found all closer after rest) :
      left ≠ [] := by
    rcases scanCloser_eq_found result with ⟨_, -, rfl, -⟩
    simp [more]
  fun_induction scanCloser before opener delimiters pending body text with
  | case1 | case2 | case5 | case7 => cases result
  | case3 delimiters pending body text skipped piece left isScan opens ih =>
    rw [scanCloser_of_found (scan_append isScan (goesOn result) other),
      if_pos opens]
    exact ih result
  | case4 delimiters body text skipped piece left isScan opens closes outer
      ih =>
    rw [scanCloser_of_found (scan_append isScan (goesOn result) other),
      if_neg opens, if_pos closes]
    simp only [if_true]
    exact ih result
  | case6 delimiters body text skipped piece left isScan opens closes named =>
    cases result
    rw [scanCloser_of_found (scan_append isScan more other), if_neg opens,
      if_pos closes]
    simp only [named, if_true]
  | case8 delimiters pending body text skipped piece left isScan opens closes
      ih =>
    rw [scanCloser_of_found (scan_append isScan (goesOn result) other),
      if_neg opens, if_neg closes]
    exact ih result

/--
A block is found with more text behind, too, if the text goes on behind it.
-/
theorem scanNode_append
    (result : scanNode delimiters text = .found skipped block after rest)
    (more : rest ≠ [])
    (other : Text) :
    scanNode delimiters (text ++ other) =
      .found skipped block after (rest ++ other) := by
  cases block with
  | leaf piece =>
    rcases scanNode_eq_leaf result with ⟨isScan, opens, closes, rfl⟩
    simp only
      [scanNode, scan_append isScan more other, if_neg opens, if_neg closes]
  | paired opener body closer =>
    rcases closer_of_scanNode result with ⟨left, isScan, opens, found⟩
    have goesOn : left ≠ [] := by
      rcases scanCloser_eq_found found with ⟨_, -, rfl, -⟩
      simp [more]
    simp only [scanNode, scan_append isScan goesOn other, if_pos opens,
      scanCloser_append found more other]

/-! ## Texts that end in text -/

/--
The last piece of a text is no tag, and no malformed tag comes after it.  The
pair in effect is `delimiters` at the start of the text and `final` at its end.
-/
inductive EndsInText : Delimiters → Text → Delimiters → Prop where
  | done (delimiters : Delimiters) : EndsInText delimiters [] delimiters
  | found
      {delimiters final : Delimiters}
      {text skipped rest : Text}
      {piece : Piece}
      (result : scan delimiters text = .found skipped piece rest)
      (last : rest = [] → piece.kind = .text)
      (further : EndsInText (piece.delimitersAfter delimiters) rest final) :
      EndsInText delimiters text final

namespace EndsInText

theorem of_scan
    (ends : EndsInText delimiters text final)
    (result : scan delimiters text = .found skipped piece rest) :
    EndsInText (piece.delimitersAfter delimiters) rest final ∧
    (rest = [] → piece.kind = .text) := by
  cases ends with
  | done =>
    rw [scan_nil] at result
    cases result
  | found result' last further =>
    rw [result] at result'
    cases result'
    exact ⟨further, last⟩

/-- Text at the start has no part in how a text ends. -/
theorem passesText (delimiters final : Delimiters) :
    PassesText delimiters (EndsInText delimiters · final) := by
  intro character rest closed
  have result := scan_of_not_opensAt closed
  apply propext
  constructor
  · intro ends
    exact (ends.of_scan result).1
  · intro ends
    exact .found result (fun _ => rfl) ends

/--
Behind a section the text still ends in text, so there is something behind it.
-/
theorem of_closer
    {before body all : Text}
    {opener closer : Piece}
    {pending : List Text}
    (ends : EndsInText delimiters text final)
    (result :
      scanCloser before opener delimiters pending body text =
        .found all closer after rest) :
    EndsInText after rest final ∧ rest ≠ [] := by
  fun_induction scanCloser before opener delimiters pending body text with
  | case1 | case2 | case5 | case7 => cases result
  | case3 delimiters pending body text skipped piece left isScan opens ih =>
    have further := (ends.of_scan isScan).1
    rw [delimitersAfter_of_scan isScan (TokenKind.ne_of_opensSection opens rfl)]
      at further
    exact ih further result
  | case4 delimiters body text skipped piece left isScan opens closes outer
      ih =>
    have further := (ends.of_scan isScan).1
    rw [delimitersAfter_of_scan isScan
        (ne_of_eq_of_ne closes TokenKind.noConfusion)] at further
    exact ih further result
  | case6 delimiters body text skipped piece left isScan opens closes named =>
    cases result
    rcases ends.of_scan isScan with ⟨further, last⟩
    rw [delimitersAfter_of_scan isScan
        (ne_of_eq_of_ne closes TokenKind.noConfusion)] at further
    refine ⟨further, ?_⟩
    intro nothing
    rw [last nothing] at closes
    cases closes
  | case8 delimiters pending body text skipped piece left isScan opens closes
      ih =>
    exact ih (ends.of_scan isScan).1 result

theorem of_nil (ends : EndsInText delimiters [] final) :
    final = delimiters := by
  cases ends with
  | done => rfl
  | found result =>
    rw [scan_nil] at result
    cases result

/-- Where there is no block, there is nothing. -/
theorem of_finished
    (ends : EndsInText delimiters text final)
    (result : scanNode delimiters text = .finished) :
    text = [] := by
  cases ends with
  | done => rfl
  | found isScan last further =>
    rcases scan_of_scanNode_finished result with ⟨skipped, none⟩
    cases isScan.symm.trans none

/-- With nothing behind it, a block is text. -/
theorem of_node
    (ends : EndsInText delimiters text final)
    (result : scanNode delimiters text = .found skipped block after rest) :
    EndsInText after rest final ∧
    (rest = [] → ∃ piece, block = .leaf piece ∧ piece.kind = .text) := by
  cases block with
  | leaf piece =>
    rcases scanNode_eq_leaf result with ⟨isScan, -, -, rfl⟩
    rcases ends.of_scan isScan with ⟨further, last⟩
    exact ⟨further, fun nothing => ⟨piece, rfl, last nothing⟩⟩
  | paired opener body closer =>
    rcases closer_of_scanNode result with ⟨left, isScan, opens, found⟩
    have further := (ends.of_scan isScan).1
    rw [delimitersAfter_of_scan isScan (TokenKind.ne_of_opensSection opens rfl)]
      at further
    rcases further.of_closer found with ⟨behind, more⟩
    exact ⟨behind, fun nothing => absurd nothing more⟩

end EndsInText

end Mustache
