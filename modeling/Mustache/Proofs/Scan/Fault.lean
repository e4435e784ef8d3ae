import Mustache.Proofs.Scan.Outline

/-!
# Where a text is at fault

Reading block after block ends at the first fault, if there is one.  Its tag
stands in the text, and what comes before that tag is everything that was read
before (`faultIn_eq_some`).  Blanks at the start of a text are only put before
it (`faultIn_blank`).
-/

namespace Mustache

/-- The text of the tag that is at fault. -/
def Fault.tag : Fault → Text
  | unbalancedSection tag | unclosedSection tag | invalidDelimiters tag
  | unclosedTag tag =>
    tag

/-- The first fault of a text, after the text before its tag. -/
def faultIn (delimiters : Delimiters) (unread : Text) : Option (Text × Fault) :=
  match _isScan : scanNode delimiters unread with
  | .finished => none
  | .faulty before fault => some (before, fault)
  | .found skipped block after rest =>
    (faultIn after rest).map fun (before, fault) =>
      (skipped ++ (block.source ++ before), fault)
termination_by unread.length
decreasing_by all_goals exact length_lt_of_scanNode _isScan

variable
    {delimiters after : Delimiters}
    {unread skipped before rest : Text}
    {block : Block}
    {fault : Fault}

theorem faultIn_of_finished (result : scanNode delimiters unread = .finished) :
    faultIn delimiters unread = none := by
  rw [faultIn]
  split <;> simp_all

theorem faultIn_of_faulty
    (result : scanNode delimiters unread = .faulty before fault) :
    faultIn delimiters unread = some (before, fault) := by
  rw [faultIn]
  split <;> simp_all

theorem faultIn_of_found
    (result : scanNode delimiters unread = .found skipped block after rest) :
    faultIn delimiters unread =
      (faultIn after rest).map fun (before, fault) =>
        (skipped ++ (block.source ++ before), fault) := by
  rw [faultIn]
  split <;> simp_all

/-! ## The tag of a fault stands in the text -/

/-- A tag that makes no piece stands where it was read. -/
theorem Lexeme.tag_isPrefix
    {text : Text}
    (faulty : (read delimiters text).piece text = .error fault) :
    fault.tag <+: text := by
  cases isRead : read delimiters text with
  | plain source =>
    rw [isRead] at faulty
    cases faulty
  | tag kind source body =>
    rcases read_eq_tag isRead with ⟨middle, rest, -, -, -, isText, -⟩
    rw [isRead] at faulty
    cases kind with
    | setDelimiters =>
      unfold Lexeme.piece at faulty
      split at faulty
      · cases faulty
      · split at faulty
        · rename_i same _ _
          cases same
          cases faulty
          exact ⟨rest, isText.symm⟩
        · cases faulty
      · rename_i notSwitch same
        cases same
        exact absurd rfl notSwitch
      · rename_i same
        cases same
    | text | comment | interpolation | implicit | unescaped | inclusion | opener
      | invertedOpener | closer => cases faulty
  | unclosed =>
    rw [isRead] at faulty
    cases faulty
    exact List.prefix_rfl

theorem scan_eq_faulty
    (result : scan delimiters unread = .faulty skipped fault) :
    ∃ rest, unread = skipped ++ (fault.tag ++ rest) := by
  unfold scan at result
  split at result
  · cases result
  · rename_i lexeme found
    rcases Lexeme.next_eq_some found with ⟨more, left, rfl, rfl, -, rfl, -⟩
    split at result
    · rename_i faulty
      cases result
      rw [List.drop_left] at faulty
      rcases Lexeme.tag_isPrefix faulty with ⟨rest, rfl⟩
      exact ⟨rest, rfl⟩
    · cases result

/--
A fault within a section is that of a tag after the opener, or of the opener
itself.
-/
theorem scanCloser_eq_faulty
    {skipped body : Text}
    {opener : Piece}
    {pending : List Text}
    (result :
      scanCloser skipped opener delimiters pending body unread =
        .faulty before fault) :
    ∃ rest,
      skipped ++ (opener.source ++ (body ++ unread)) =
        before ++ (fault.tag ++ rest) := by
  fun_induction scanCloser skipped opener delimiters pending body unread with
  | case1 =>
    cases result
    exact ⟨_, rfl⟩
  | case2 delimiters pending body unread more fault isScan =>
    cases result
    rcases scan_eq_faulty isScan with ⟨rest, rfl⟩
    exact ⟨rest, by simp⟩
  | case3 delimiters pending body unread more piece left isScan opens ih =>
    rcases scan_eq_found isScan with ⟨rfl, -⟩
    simpa using ih result
  | case4 delimiters body unread more piece left isScan opens closes outer ih =>
    rcases scan_eq_found isScan with ⟨rfl, -⟩
    simpa using ih result
  | case5 delimiters body unread more piece left isScan
  | case7 delimiters body unread more piece left isScan =>
    rcases scan_eq_found isScan with ⟨rfl, -⟩
    cases result
    exact ⟨left, by simp [Fault.tag]⟩
  | case6 => cases result
  | case8 delimiters pending body unread more piece left isScan opens closes
      ih =>
    rcases scan_eq_found isScan with ⟨rfl, -⟩
    simpa using ih result

theorem scanNode_eq_faulty
    (result : scanNode delimiters unread = .faulty before fault) :
    ∃ rest, unread = before ++ (fault.tag ++ rest) := by
  rcases scanNode_faulty_cases result with
    isScan | ⟨skipped, opener, rest, isScan, -, found⟩ |
    ⟨closer, rest, isScan, -, rfl⟩
  · exact scan_eq_faulty isScan
  · rcases scan_eq_found isScan with ⟨rfl, -⟩
    simpa using scanCloser_eq_faulty found
  · rcases scan_eq_found isScan with ⟨rfl, -⟩
    exact ⟨rest, rfl⟩

/-- The tag that is at fault stands in the text, after what was read before. -/
theorem faultIn_eq_some
    (found : faultIn delimiters unread = some (before, fault)) :
    ∃ rest, unread = before ++ (fault.tag ++ rest) := by
  fun_induction faultIn delimiters unread generalizing before with
  | case1 => cases found
  | case2 delimiters unread before fault result =>
    cases found
    exact scanNode_eq_faulty result
  | case3 delimiters unread skipped block after rest result ih =>
    rcases Option.map_eq_some_iff.1 found with ⟨⟨inner, same⟩, isInner, both⟩
    cases both
    rcases ih isInner with ⟨left, isRest⟩
    exact ⟨left, by rw [(scanNode_eq_found result).1, isRest]; simp⟩

/-! ## Blanks before a text -/

/--
The text that a fault stands after is put off by a stretch of text at its start.
-/
theorem faultIn_of_not_opensAt
    {character : Char}
    {text : Text}
    (closed : delimiters.opensAt (character :: text) = false) :
    faultIn delimiters (character :: text) =
      (faultIn delimiters
        ((character :: text).drop
          (Lexeme.readPlain delimiters.opening (character :: text)).length)).map
        fun (before, fault) =>
          (Lexeme.readPlain delimiters.opening (character :: text) ++ before,
            fault) :=
  faultIn_of_found (scanNode_of_not_opensAt closed)

theorem faultIn_nil (delimiters : Delimiters) : faultIn delimiters [] = none :=
  faultIn_of_finished (scanNode_nil delimiters)

/-- Where no tag can open there is no fault. -/
theorem faultIn_of_no_opening
    (isEmpty : delimiters.opening = [])
    (text : Text) :
    faultIn delimiters text = none := by
  cases text with
  | nil => exact faultIn_nil delimiters
  | cons character text =>
    have closed : delimiters.opensAt (character :: text) = false := by
      simp [Delimiters.opensAt, Delimiters.canMarkTags, isEmpty]
    rw [faultIn_of_not_opensAt closed, Lexeme.readPlain_cons, isEmpty]
    simp [faultIn_nil]

theorem readPlain_of_opening
    (nonempty : delimiters.opening ≠ [])
    (character : Char)
    (text : Text) :
    Lexeme.readPlain delimiters.opening (character :: text) =
      character :: Text.upTo delimiters.opening [] text := by
  rw [Lexeme.readPlain_cons, if_neg (by simpa using nonempty)]

/-- So is it put off by the text up to the next place where a tag may open. -/
theorem faultIn_drop_upTo
    (nonempty : delimiters.opening ≠ [])
    (text : Text) :
    faultIn delimiters text =
      (faultIn delimiters
        (text.drop (Text.upTo delimiters.opening [] text).length)).map
        fun (before, fault) =>
          (Text.upTo delimiters.opening [] text ++ before, fault) := by
  cases text with
  | nil => rw [List.drop_nil, faultIn_nil, Option.map_none]
  | cons character text =>
    by_cases starts : delimiters.opening <+: character :: text
    · simp [Text.upTo_nil_of_starts starts]
    · have closed : delimiters.opensAt (character :: text) = false := by
        apply Bool.eq_false_iff.2
        intro opens
        exact starts (opensAt_iff.1 opens).2.2
      rw [faultIn_of_not_opensAt closed, Text.upTo_cons_of_not_starts starts,
        readPlain_of_opening nonempty]

/-- A character at which no tag opens is only put before the text of a fault. -/
theorem faultIn_cons
    {character : Char}
    {text : Text}
    (closed : delimiters.opensAt (character :: text) = false) :
    faultIn delimiters (character :: text) =
      (faultIn delimiters text).map fun (before, fault) =>
        (character :: before, fault) := by
  by_cases isEmpty : delimiters.opening = []
  · rw [faultIn_of_no_opening isEmpty, faultIn_of_no_opening isEmpty,
      Option.map_none]
  · rw [faultIn_of_not_opensAt closed, faultIn_drop_upTo isEmpty text,
      readPlain_of_opening isEmpty]
    simp [Option.map_map, Function.comp_def]

/-- Blanks at the start of a text are only put before the text of a fault. -/
theorem faultIn_blank
    (solid : delimiters.Solid)
    {line : Text}
    (blank : ∀ character ∈ line, Text.isBlank character = true)
    (rest : Text) :
    faultIn delimiters (line ++ rest) =
      (faultIn delimiters rest).map fun (before, fault) =>
        (line ++ before, fault) := by
  induction line with
  | nil => simp
  | cons character line ih =>
    rw [List.cons_append,
      faultIn_cons
        (not_opensAt_of_isBlank solid (blank character List.mem_cons_self) _),
      ih fun other member => blank other (List.mem_cons_of_mem _ member)]
    simp [Option.map_map, Function.comp_def]

end Mustache
