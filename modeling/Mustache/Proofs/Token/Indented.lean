import Mustache.Proofs.Text.Indent
import Mustache.Proofs.Token.Lexeme

/-!
# Tags in an indented text

A tag that spans several lines is indented with the text around it.  It is still
the same tag: it has the same modifier, and it ends at the same closing
delimiter, because neither holds a blank.  Only its body is indented
(`read_indentFrom`).
-/

namespace Mustache

namespace Lexeme

variable {indentation closing : Text} {triple : Bool}

/-- In a triple tag nothing comes into the body once there are two braces. -/
theorem readBody_of_braces
    {passed body text all inner : Text}
    (starts : ['}', '}'] <+: text)
    (found : readBody ['}', '}'] true passed body text = some (all, inner)) :
    inner = body.reverse := by
  induction text generalizing passed with
  | nil => cases found
  | cons character text ih =>
    simp only [readBody] at found
    split at found
    · rename_i isBrace
      rw [Bool.true_and, List.isPrefixOf_iff_prefix] at isBrace
      exact ih (List.cons_prefix_cons.1 isBrace).2 found
    · split at found
      · cases found
        rfl
      · rename_i notClosing
        exact absurd (List.isPrefixOf_iff_prefix.2 starts) notClosing

theorem readBody_blanks
    (nonempty : closing ≠ [])
    (solid : ∀ character ∈ closing, Text.isBlank character = false)
    {blanks : Text}
    (blank : ∀ character ∈ blanks, Text.isBlank character = true)
    (passed body text : Text) :
    readBody closing triple passed body (blanks ++ text) =
      readBody closing triple (blanks.reverse ++ passed)
        (blanks.reverse ++ body) text := by
  induction blanks generalizing passed body with
  | nil => rfl
  | cons character blanks ih =>
    have isBlank := blank character List.mem_cons_self
    have notBrace :
        ¬(triple &&
            ['}', '}', '}'].isPrefixOf
              (character :: (blanks ++ text))) = true := by
      intro holds
      have starts :=
        List.isPrefixOf_iff_prefix.1 (Bool.and_eq_true_iff.1 holds).2
      rw [← (List.cons_prefix_cons.1 starts).1] at isBlank
      cases isBlank
    have notClosing :
        ¬closing.isPrefixOf (character :: (blanks ++ text)) = true := by
      intro holds
      rcases List.exists_cons_of_ne_nil nonempty with ⟨first, others, rfl⟩
      have starts := List.isPrefixOf_iff_prefix.1 holds
      have same := (List.cons_prefix_cons.1 starts).1
      rw [← same, solid first List.mem_cons_self] at isBlank
      cases isBlank
    rw [List.cons_append, readBody, if_neg notBrace, if_neg notClosing,
      ih fun other member => blank other (List.mem_cons_of_mem _ member)]
    simp

/--
The body of a tag in an indented text.  `before` is the text up to the closing
delimiter and `body` what the tag keeps of it, which in a triple tag leaves out
the braces.
-/
structure BodyIndented
    (indentation closing : Text)
    (triple : Bool)
    (before body text : Text) : Prop where
  split : ∃ rest, text = before ++ (closing ++ rest)
  head_eq : text.head? = (body ++ closing).head?
  subset : ∀ character ∈ body, character ∈ before
  indented :
    ∀ lineStart passed gathered,
      ∃ body',
        Text.indentFrom indentation lineStart (body ++ closing) =
          body' ++ closing ∧
        readBody closing triple passed gathered
            (Text.indentFrom indentation lineStart text) =
          some
            (passed.reverse ++
                Text.indentFrom indentation lineStart (before ++ closing),
              gathered.reverse ++ body')

section

variable
    (blankIndentation :
      ∀ character ∈ indentation, Text.isBlank character = true)
    (nonempty : closing ≠ [])
    (solid : ∀ character ∈ closing, Text.isBlank character = false)

/--
A pattern without blanks starts at a character of an indented text where it did
before.
-/
theorem isPrefixOf_indentFrom
    {pattern : Text}
    (solid : ∀ character ∈ pattern, Text.isBlank character = false)
    (character : Char)
    (text : Text) :
    pattern.isPrefixOf
        (character ::
          Text.indentFrom indentation (Text.endsLine character text) text) =
      pattern.isPrefixOf (character :: text) := by
  have alike :
      Text.indentFrom indentation false (character :: text) =
        character ::
          Text.indentFrom indentation (Text.endsLine character text) text :=
    rfl
  rw [← alike, Bool.eq_iff_iff, List.isPrefixOf_iff_prefix,
    List.isPrefixOf_iff_prefix]
  exact Text.starts_indentFrom solid (character :: text)

/--
The tests of the next character give the same answers in an indented text.
-/
theorem braces_indentFrom
    (triple : Bool)
    (character : Char)
    (text : Text) :
    (triple &&
        ['}', '}', '}'].isPrefixOf
          (character ::
            Text.indentFrom indentation (Text.endsLine character text) text)) =
      (triple && ['}', '}', '}'].isPrefixOf (character :: text)) := by
  have solid : ∀ brace ∈ ['}', '}', '}'], Text.isBlank brace = false := by
    intro brace member
    simp only [List.mem_cons, List.not_mem_nil, or_false, or_self] at member
    rw [member]
    rfl
  rw [isPrefixOf_indentFrom solid]

/--
What is added before a character is added before a delimiter that starts with
it.
-/
theorem indentFrom_of_added
    {character : Char}
    {others text added : Text}
    {lineStart : Bool}
    (solid : ∀ other ∈ character :: others, Text.isBlank other = false)
    (isAdded :
      ∀ other,
        Text.endsLine character other = Text.endsLine character text →
        Text.indentFrom indentation lineStart (character :: other) =
          added ++ character ::
            Text.indentFrom indentation (Text.endsLine character text) other) :
    Text.indentFrom indentation lineStart (character :: others) =
      added ++ character :: others := by
  have ends := Text.endsLine_of_solid (solid character List.mem_cons_self)
  have inline : Text.indentFrom indentation false others = others :=
    Text.indentFrom_of_solid fun other member =>
      solid other (List.mem_cons_of_mem _ member)
  rw [isAdded others (by rw [ends, ends]), ends, inline]

include blankIndentation nonempty solid

/--
Up to the next character there may be an indentation, which goes into the body.
-/
theorem readBody_indentFrom_cons
    (triple lineStart : Bool)
    (passed gathered : Text)
    (character : Char)
    (text : Text) :
    ∃ added,
      Text.indentFrom indentation lineStart (character :: text) =
        added ++ character ::
          Text.indentFrom indentation (Text.endsLine character text) text ∧
      (∀ other,
        Text.endsLine character other = Text.endsLine character text →
        Text.indentFrom indentation lineStart (character :: other) =
          added ++ character ::
            Text.indentFrom indentation (Text.endsLine character text) other) ∧
      readBody closing triple passed gathered
          (Text.indentFrom indentation lineStart (character :: text)) =
        readBody closing triple (added.reverse ++ passed)
          (added.reverse ++ gathered)
          (character ::
            Text.indentFrom indentation (Text.endsLine character text)
              text) := by
  have blank :
      ∀ other ∈ if lineStart && !Text.isLineBreak character then indentation
          else [],
        Text.isBlank other = true := by
    split
    · exact blankIndentation
    · simp
  refine ⟨_, rfl, ?_, readBody_blanks nonempty solid blank passed gathered _⟩
  intro other same
  rw [Text.indentFrom, same]

theorem BodyIndented.of_closing
    {text rest : Text}
    {character : Char}
    (notBrace :
      ¬(triple && ['}', '}', '}'].isPrefixOf (character :: text)) = true)
    (closes : closing ++ rest = character :: text) :
    BodyIndented indentation closing triple [] [] (character :: text) where
  split := ⟨rest, closes.symm⟩
  head_eq := by
    rw [← closes]
    cases closing with
    | nil => exact absurd rfl nonempty
    | cons first others => rfl
  subset := by simp
  indented := by
    intro lineStart passed gathered
    rcases readBody_indentFrom_cons blankIndentation nonempty solid triple
        lineStart passed gathered character text with ⟨added, -, isAdded, ahead⟩
    have closesHere :
        closing.isPrefixOf
            (character ::
              Text.indentFrom indentation (Text.endsLine character text)
                text) = true := by
      rw [isPrefixOf_indentFrom solid, ← closes]
      exact List.isPrefixOf_iff_prefix.2 (List.prefix_append closing rest)
    have isClosing :
        Text.indentFrom indentation lineStart closing = added ++ closing := by
      cases closing with
      | nil => exact absurd rfl nonempty
      | cons first others =>
        cases closes
        exact indentFrom_of_added solid isAdded
    refine ⟨added, isClosing, ?_⟩
    rw [List.nil_append, ahead, readBody, if_neg (by rwa [braces_indentFrom]),
      if_pos closesHere, isClosing]
    simp

theorem BodyIndented.of_character
    {before body text : Text}
    {character : Char}
    (notBrace :
      ¬(triple && ['}', '}', '}'].isPrefixOf (character :: text)) = true)
    (notClosing : ¬closing.isPrefixOf (character :: text) = true)
    (parts : BodyIndented indentation closing triple before body text) :
    BodyIndented indentation closing triple (character :: before)
      (character :: body) (character :: text) where
  split := by
    rcases parts.split with ⟨rest, rfl⟩
    exact ⟨rest, rfl⟩
  head_eq := rfl
  subset := by
    intro other member
    rcases List.mem_cons.1 member with rfl | within
    · exact List.mem_cons_self
    · exact List.mem_cons_of_mem _ (parts.subset other within)
  indented := by
    intro lineStart passed gathered
    rcases readBody_indentFrom_cons blankIndentation nonempty solid triple
        lineStart passed gathered character text with ⟨added, -, isAdded, ahead⟩
    rcases parts.indented (Text.endsLine character text)
        (character :: (added.reverse ++ passed))
        (character :: (added.reverse ++ gathered)) with ⟨body', isBody, further⟩
    have bodyAlike := Text.endsLine_congr character parts.head_eq.symm
    have beforeAlike : Text.endsLine character (before ++ closing) =
        Text.endsLine character text := by
      rcases parts.split with ⟨rest, rfl⟩
      apply Text.endsLine_congr
      rw [← List.append_assoc]
      cases isEmpty : before ++ closing with
      | nil => exact absurd (List.append_eq_nil_iff.1 isEmpty).2 nonempty
      | cons first others => rfl
    refine ⟨added ++ character :: body', ?_, ?_⟩
    · rw [List.cons_append, isAdded _ bodyAlike, isBody]
      simp
    · rw [ahead, readBody, if_neg (by rwa [braces_indentFrom]),
        if_neg (by rwa [isPrefixOf_indentFrom solid]), further,
        List.cons_append, isAdded _ beforeAlike]
      simp

theorem BodyIndented.of_brace
    {before text : Text}
    {character : Char}
    (isBrace :
      (triple && ['}', '}', '}'].isPrefixOf (character :: text)) = true)
    (braces : triple = true → closing = ['}', '}'])
    (parts : BodyIndented indentation closing triple before [] text) :
    BodyIndented indentation closing triple (character :: before) []
      (character :: text) where
  split := by
    rcases parts.split with ⟨rest, rfl⟩
    exact ⟨rest, rfl⟩
  head_eq := by
    rcases Bool.and_eq_true_iff.1 isBrace with ⟨isTriple, starts⟩
    have same :=
      (List.cons_prefix_cons.1 (List.isPrefixOf_iff_prefix.1 starts)).1
    rw [braces isTriple, ← same]
    rfl
  subset := by simp
  indented := by
    intro lineStart passed gathered
    rcases Bool.and_eq_true_iff.1 isBrace with ⟨isTriple, starts⟩
    have same :=
      (List.cons_prefix_cons.1 (List.isPrefixOf_iff_prefix.1 starts)).1
    have isClosing := braces isTriple
    rcases readBody_indentFrom_cons blankIndentation nonempty solid triple
        lineStart passed gathered character text with ⟨added, -, isAdded, ahead⟩
    rcases parts.indented (Text.endsLine character text)
        (character :: (added.reverse ++ passed))
        (added.reverse ++ gathered) with ⟨body', isBody, further⟩
    have ends (other : Text) : Text.endsLine character other = false := by
      rw [← same]
      rfl
    have nothing : body' = [] := by
      rw [ends, List.nil_append, Text.indentFrom_of_solid solid] at isBody
      simpa using isBody
    have closed :
        Text.indentFrom indentation lineStart ([] ++ closing) =
          added ++ closing := by
      rw [isClosing, same] at solid ⊢
      exact indentFrom_of_added solid isAdded
    refine ⟨added, closed, ?_⟩
    rw [ahead, readBody, if_pos (by rwa [braces_indentFrom]), further,
      List.cons_append, isAdded _ (by rw [ends, ends]), nothing]
    simp

theorem readBody_indentFrom
    (braces : triple = true → closing = ['}', '}'])
    {passed gathered text all inner : Text}
    (found : readBody closing triple passed gathered text = some (all, inner)) :
    ∃ before body,
      all = passed.reverse ++ (before ++ closing) ∧
      inner = gathered.reverse ++ body ∧
      BodyIndented indentation closing triple before body text := by
  induction text generalizing passed gathered with
  | nil => cases found
  | cons character text ih =>
    simp only [readBody] at found
    split at found
    · rename_i isBrace
      rcases ih found with ⟨before, body, rfl, isInner, parts⟩
      rcases Bool.and_eq_true_iff.1 isBrace with ⟨isTriple, starts⟩
      have further :=
        (List.cons_prefix_cons.1 (List.isPrefixOf_iff_prefix.1 starts)).2
      rw [isTriple, braces isTriple] at found
      rw [readBody_of_braces further found] at isInner
      have noBody : body = [] := by simpa using isInner
      rw [noBody] at parts
      refine ⟨character :: before, [], by simp, ?_, ?_⟩
      · rw [readBody_of_braces further found, List.append_nil]
      · exact .of_brace blankIndentation nonempty solid isBrace braces parts
    · rename_i notBrace
      split at found
      · rename_i closes
        cases found
        rcases List.isPrefixOf_iff_prefix.1 closes with ⟨rest, closes⟩
        exact ⟨[], [], rfl, (List.append_nil _).symm,
          .of_closing blankIndentation nonempty solid notBrace closes⟩
      · rename_i notClosing
        rcases ih found with ⟨before, body, rfl, rfl, parts⟩
        exact ⟨character :: before, character :: body, by simp, by simp,
          .of_character blankIndentation nonempty solid notBrace notClosing
            parts⟩

/-- A body that never ends does not end after indenting. -/
theorem readBody_indentFrom_eq_none
    {passed gathered text : Text}
    (unfound : readBody closing triple passed gathered text = none)
    (lineStart : Bool)
    (passed' gathered' : Text) :
    readBody closing triple passed' gathered'
        (Text.indentFrom indentation lineStart text) = none := by
  induction text generalizing passed gathered lineStart passed' gathered' with
  | nil => rfl
  | cons character text ih =>
    rcases readBody_indentFrom_cons blankIndentation nonempty solid triple
        lineStart passed' gathered' character text with ⟨added, -, -, ahead⟩
    rw [ahead, readBody, braces_indentFrom, isPrefixOf_indentFrom solid]
    rw [readBody] at unfound
    split at unfound
    · rename_i isBrace
      rw [if_pos isBrace]
      exact ih unfound ..
    · rename_i notBrace
      rw [if_neg notBrace]
      split at unfound
      · cases unfound
      · rename_i notClosing
        rw [if_neg notClosing]
        exact ih unfound ..

end

/-! ## Tags -/

theorem modifierOf_solid (rest : Text) :
    ∀ character ∈ modifierOf rest, Text.isBlank character = false := by
  cases rest with
  | nil =>
    intro character member
    cases member
  | cons first rest =>
    unfold modifierOf TokenKind.ofModifier
    split <;> simp_all <;> decide

theorem modifierOf_congr
    {first second : Text}
    (same : first.head? = second.head?) :
    modifierOf first = modifierOf second := by
  cases first with
  | nil =>
    cases second with
    | nil => rfl
    | cons => cases same
  | cons =>
    cases second with
    | nil => cases same
    | cons =>
      cases same
      rfl

section

variable
    {delimiters : Delimiters}
    (solid :
      ∀ character ∈ delimiters.opening ++ delimiters.closing,
        Text.isBlank character = false)

include solid

/--
The opening delimiter and the modifier of a tag are not indented, but its body
is.
-/
theorem read_indentFrom_opening
    (openingNonempty : delimiters.opening ≠ [])
    (closingNonempty : delimiters.closing ≠ [])
    (rest : Text) :
    read delimiters
      (Text.indentFrom indentation false (delimiters.opening ++ rest)) =
      match readBody delimiters.closing (isTriple delimiters rest) [] []
          (Text.indentFrom indentation false
            (rest.drop (modifierOf rest).length)) with
      | none => unclosed
      | some (passed, body) =>
        tag (TokenKind.ofModifier rest.head?).1
          (delimiters.opening ++ modifierOf rest ++ passed) body := by
  have solidOpening :
      ∀ character ∈ delimiters.opening, Text.isBlank character = false :=
    fun character member => solid character (List.mem_append_left _ member)
  have sameHead := Text.head?_indentFrom indentation rest
  have remaining :
      (Text.indentFrom indentation false rest).drop (modifierOf rest).length =
        Text.indentFrom indentation false
          (rest.drop (modifierOf rest).length) := by
    have split :
        Text.indentFrom indentation false rest =
          modifierOf rest ++
            Text.indentFrom indentation false
              (rest.drop (modifierOf rest).length) := by
      rw [← Text.indentFrom_solid_append (modifierOf_solid rest),
        drop_modifierOf]
    rw [split, List.drop_left]
  have tagged := readTag_eq delimiters (Text.indentFrom indentation false rest)
  rw [modifierOf_congr sameHead, remaining, isTriple, sameHead, ← isTriple]
    at tagged
  rw [Text.indentFrom_solid_append solidOpening,
    read_of_opens openingNonempty closingNonempty]
  exact tagged

/--
A tag in an indented text is the same tag, with its source and its body
indented.
-/
theorem read_indentFrom
    {text source body : Text}
    {kind : TokenKind}
    (blankIndentation :
      ∀ character ∈ indentation, Text.isBlank character = true)
    (isRead : read delimiters text = tag kind source body) :
    ∃ body',
      read delimiters (Text.indentFrom indentation false text) =
        tag kind (Text.indentFrom indentation false source) body' ∧
      Text.indentFrom indentation false (body ++ delimiters.closing) =
        body' ++ delimiters.closing ∧
      ∀ character ∈ body, character ∈ source := by
  have solidOpening :
      ∀ character ∈ delimiters.opening, Text.isBlank character = false :=
    fun character member => solid character (List.mem_append_left _ member)
  have solidClosing :
      ∀ character ∈ delimiters.closing, Text.isBlank character = false :=
    fun character member => solid character (List.mem_append_right _ member)
  rcases opens_iff.1 (opens_of_read isRead) with
    ⟨openingNonempty, closingNonempty, rest, rfl⟩
  rw [read_of_opens openingNonempty closingNonempty, readTag_eq] at isRead
  split at isRead
  · cases isRead
  · rename_i all inner found
    cases isRead
    rcases readBody_indentFrom blankIndentation closingNonempty solidClosing
      closing_of_isTriple found with ⟨before, body, isAll, isInner, parts⟩
    rw [List.reverse_nil, List.nil_append] at isAll isInner
    subst isAll
    subst isInner
    rcases parts.indented false [] [] with ⟨body', isBody, again⟩
    refine ⟨body', ?_, isBody, ?_⟩
    · rw [read_indentFrom_opening solid openingNonempty closingNonempty, again,
        List.append_assoc, Text.indentFrom_solid_append solidOpening,
        Text.indentFrom_solid_append (modifierOf_solid rest)]
      simp
    · intro character member
      have within := parts.subset character member
      simp [within]

/-- A tag that is not closed is not closed in an indented text. -/
theorem read_indentFrom_eq_unclosed
    {text : Text}
    (blankIndentation :
      ∀ character ∈ indentation, Text.isBlank character = true)
    (isRead : read delimiters text = unclosed) :
    read delimiters (Text.indentFrom indentation false text) = unclosed := by
  have solidClosing :
      ∀ character ∈ delimiters.closing, Text.isBlank character = false :=
    fun character member => solid character (List.mem_append_right _ member)
  rcases opens_iff.1 (opens_of_unclosed isRead) with
    ⟨openingNonempty, closingNonempty, rest, rfl⟩
  rw [read_of_opens openingNonempty closingNonempty, readTag_eq] at isRead
  split at isRead
  · rename_i unfound
    rw [read_indentFrom_opening solid openingNonempty closingNonempty,
      readBody_indentFrom_eq_none blankIndentation closingNonempty solidClosing
        unfound]
  · cases isRead

end

end Lexeme

end Mustache
