import Mustache.Token.Lexer

/-!
# Lexemes in their surroundings

A tag is found by its own characters.  It runs from the opening delimiter to the
first closing one, so another text after it makes no difference, except that a
brace right after a triple tag would belong to the tag (`Lexeme.read_eq_tag`).
A stretch of text runs up to the next opening delimiter (`Text.upTo_eq_append`).
-/

namespace Mustache

namespace Text

theorem upTo_eq_append (pattern passed text : Text) :
    upTo pattern passed text = passed.reverse ++ upTo pattern [] text := by
  induction text generalizing passed with
  | nil => simp [upTo]
  | cons character rest ih =>
    simp only [upTo]
    split
    · simp
    · rw [ih (character :: passed), ih [character]]
      simp

theorem upTo_nil_of_starts
    {pattern text : Text}
    (starts : pattern <+: text) :
    upTo pattern [] text = [] := by
  cases text with
  | nil => rfl
  | cons character rest =>
    simp only [upTo]
    rw [if_pos (List.isPrefixOf_iff_prefix.2 starts)]
    rfl

theorem upTo_cons_of_not_starts
    {pattern rest : Text}
    {character : Char}
    (starts : ¬pattern <+: character :: rest) :
    upTo pattern [] (character :: rest) =
      character :: upTo pattern [] rest := by
  simp only [upTo]
  rw [if_neg (fun holds => starts (List.isPrefixOf_iff_prefix.1 holds)),
    upTo_eq_append]
  rfl

theorem upTo_isPrefix (pattern text : Text) :
    upTo pattern [] text <+: text := by
  induction text with
  | nil => exact List.prefix_rfl
  | cons character rest ih =>
    by_cases starts : pattern <+: character :: rest
    · rw [upTo_nil_of_starts starts]
      exact List.nil_prefix
    · rw [upTo_cons_of_not_starts starts]
      exact (List.prefix_append_right_inj [character]).2 ih

end Text

namespace Lexeme

theorem readPlain_cons
    (opening rest : Text)
    (character : Char) :
    readPlain opening (character :: rest) =
      character ::
        if opening.isEmpty then rest else Text.upTo opening [] rest := by
  simp only [readPlain]
  split
  · rfl
  · rw [Text.upTo_eq_append]
    rfl

theorem readPlain_isPrefix (opening text : Text) :
    readPlain opening text <+: text := by
  cases text with
  | nil => exact List.nil_prefix
  | cons character rest =>
    have tail :
        (if opening.isEmpty then rest else Text.upTo opening [] rest) <+:
          rest := by
      split
      · exact List.prefix_rfl
      · exact Text.upTo_isPrefix opening rest
    rw [readPlain_cons]
    exact (List.prefix_append_right_inj [character]).2 tail

theorem readPlain_ne_nil
    {opening text : Text}
    (nonempty : text ≠ []) :
    readPlain opening text ≠ [] := by
  cases text with
  | nil => exact absurd rfl nonempty
  | cons character rest => simp [readPlain_cons]

/-! ## Bodies -/

/--
A pattern that fits into the first of two texts does not see the second one.
-/
theorem isPrefixOf_append_congr
    {pattern first : Text}
    (fits : pattern.length ≤ first.length)
    (second other : Text) :
    pattern.isPrefixOf (first ++ second) =
      pattern.isPrefixOf (first ++ other) := by
  have inside (rest : Text) : pattern <+: first ++ rest ↔ pattern <+: first :=
    ⟨fun starts =>
        List.prefix_of_prefix_length_le starts (List.prefix_append first rest)
          fits, List.prefix_append_of_prefix⟩
  rw [Bool.eq_iff_iff, List.isPrefixOf_iff_prefix, List.isPrefixOf_iff_prefix,
    inside, inside]

/--
Where a body ends, three braces are at hand only if a brace stands after the
delimiter.
-/
theorem not_triple_of_head
    {closing : Text}
    {triple : Bool}
    (braces : triple = true → closing = ['}', '}'])
    {rest other : Text}
    (notTriple :
      ¬(triple && ['}', '}', '}'].isPrefixOf (closing ++ rest)) = true)
    (noBrace : other.head? = some '}' → rest.head? = some '}') :
    ¬(triple && ['}', '}', '}'].isPrefixOf (closing ++ other)) = true := by
  cases isTriple : triple with
  | false => exact Bool.false_ne_true
  | true =>
    rw [braces isTriple, isTriple] at notTriple
    rw [braces isTriple]
    have different : rest.head? ≠ some '}' := by
      intro same
      cases rest with
      | nil => cases same
      | cons next rest =>
        cases same
        exact notTriple rfl
    cases other with
    | nil => exact Bool.false_ne_true
    | cons next other =>
      intro holds
      have same : '}' = next := by simpa [List.isPrefixOf] using holds
      exact different (noBrace (by rw [← same]; rfl))

/-- A body ends where the closing delimiter stands and three braces do not. -/
theorem readBody_of_closing
    {closing : Text}
    {triple : Bool}
    (nonempty : closing ≠ [])
    {text : Text}
    (notTriple :
      ¬(triple && ['}', '}', '}'].isPrefixOf (closing ++ text)) = true)
    (passed body : Text) :
    readBody closing triple passed body (closing ++ text) =
      some (passed.reverse ++ closing, body.reverse) := by
  rcases List.exists_cons_of_ne_nil nonempty with ⟨head, tail, rfl⟩
  have closes : (head :: tail).isPrefixOf (head :: tail ++ text) :=
    List.isPrefixOf_iff_prefix.2 (List.prefix_append _ text)
  simp only [List.cons_append] at notTriple closes ⊢
  rw [readBody, if_neg notTriple, if_pos closes]

/--
The body of a tag ends with the closing delimiter.  What follows may be replaced
by anything that does not put a brace in a place where there was none.
-/
theorem readBody_eq_some
    {closing : Text}
    {triple : Bool}
    (nonempty : closing ≠ [])
    (braces : triple = true → closing = ['}', '}'])
    {passed body text all inner : Text}
    (found : readBody closing triple passed body text = some (all, inner)) :
    ∃ before rest,
      all = passed.reverse ++ (before ++ closing) ∧
      text = before ++ (closing ++ rest) ∧
      ∀ other : Text,
        (other.head? = some '}' → rest.head? = some '}') →
        readBody closing triple passed body (before ++ (closing ++ other)) =
          some (all, inner) := by
  induction text generalizing passed body with
  | nil => simp [readBody] at found
  | cons character text ih =>
    have closesAlike (before rest other : Text) :
        closing.isPrefixOf (character :: (before ++ (closing ++ other))) =
          closing.isPrefixOf (character :: (before ++ (closing ++ rest))) := by
      have fits :
          closing.length ≤ (character :: (before ++ closing)).length := by
        simp only [List.length_cons, List.length_append]
        omega
      simpa using isPrefixOf_append_congr fits other rest
    have bracesAlike (before rest other : Text) :
        (triple &&
            ['}', '}', '}'].isPrefixOf
              (character :: (before ++ (closing ++ other)))) =
          (triple &&
            ['}', '}', '}'].isPrefixOf
              (character :: (before ++ (closing ++ rest)))) := by
      cases isTriple : triple with
      | false => rfl
      | true =>
        have fits :
            ['}', '}', '}'].length ≤
              (character :: (before ++ closing)).length := by
          simp [braces isTriple]
        simpa using isPrefixOf_append_congr fits other rest
    simp only [readBody] at found
    split at found
    · rename_i isBrace
      rcases ih found with ⟨before, rest, rfl, rfl, elsewhere⟩
      refine ⟨character :: before, rest, by simp, rfl, ?_⟩
      intro other noBrace
      simp only [List.cons_append, readBody]
      rw [if_pos (by rw [bracesAlike before rest other]; exact isBrace)]
      exact elsewhere other noBrace
    · rename_i notBrace
      split at found
      · rename_i closes
        cases found
        rcases List.isPrefixOf_iff_prefix.1 closes with ⟨rest, equality⟩
        refine ⟨[], rest, by simp, by simpa using equality.symm, ?_⟩
        intro other noBrace
        rw [← equality] at notBrace
        have noTriple := not_triple_of_head braces notBrace noBrace
        exact readBody_of_closing nonempty noTriple passed body
      · rename_i notClosing
        rcases ih found with ⟨before, rest, rfl, rfl, elsewhere⟩
        refine ⟨character :: before, rest, by simp, rfl, ?_⟩
        intro other noBrace
        simp only [List.cons_append, readBody]
        rw [if_neg (by rw [bracesAlike before rest other]; exact notBrace),
          if_neg (by rw [closesAlike before rest other]; exact notClosing)]
        exact elsewhere other noBrace

/-! ## Tags -/

theorem opens_iff
    {delimiters : Delimiters}
    {unread : Text} :
    (delimiters.canMarkTags && delimiters.opening.isPrefixOf unread) = true ↔
      delimiters.opening ≠ [] ∧
        delimiters.closing ≠ [] ∧
        delimiters.opening <+: unread := by
  simp [Delimiters.canMarkTags, and_assoc]

/-- A tag is only read where its opening delimiter stands. -/
theorem opens_of_read
    {delimiters : Delimiters}
    {unread source body : Text}
    {kind : TokenKind}
    (isTag : read delimiters unread = tag kind source body) :
    (delimiters.canMarkTags && delimiters.opening.isPrefixOf unread) =
      true := by
  unfold read at isTag
  split at isTag
  · rename_i opens
    exact opens
  · cases isTag

theorem opens_of_unclosed
    {delimiters : Delimiters}
    {unread : Text}
    (isUnclosed : read delimiters unread = unclosed) :
    (delimiters.canMarkTags && delimiters.opening.isPrefixOf unread) =
      true := by
  unfold read at isUnclosed
  split at isUnclosed
  · rename_i opens
    exact opens
  · cases isUnclosed

/-- The modifier at the start of what follows the opening delimiter of a tag. -/
def modifierOf (rest : Text) : Text :=
  if (TokenKind.ofModifier rest.head?).2 then rest.take 1 else []

theorem drop_modifierOf (rest : Text) :
    modifierOf rest ++ rest.drop (modifierOf rest).length = rest := by
  cases rest with
  | nil => rfl
  | cons character rest =>
    unfold modifierOf
    split <;> rfl

/--
The modifier does not depend on what follows when a first character is there.
-/
theorem modifierOf_append
    {first : Text}
    (nonempty : first ≠ [])
    (second : Text) :
    modifierOf (first ++ second) = modifierOf first := by
  cases first with
  | nil => exact absurd rfl nonempty
  | cons character first => rfl

/-- Is a tag a triple one? -/
def isTriple (delimiters : Delimiters) (rest : Text) : Bool :=
  rest.head? == some '{' && delimiters.closing == ['}', '}']

theorem closing_of_isTriple
    {delimiters : Delimiters}
    {rest : Text}
    (triple : isTriple delimiters rest = true) :
    delimiters.closing = ['}', '}'] := by
  simpa using (Bool.and_eq_true_iff.1 triple).2

theorem readTag_eq
    (delimiters : Delimiters)
    (rest : Text) :
    readTag delimiters rest =
      match readBody delimiters.closing (isTriple delimiters rest) [] []
        (rest.drop (modifierOf rest).length) with
      | none => unclosed
      | some (passed, body) =>
        tag (TokenKind.ofModifier rest.head?).1
          (delimiters.opening ++ modifierOf rest ++ passed) body :=
  rfl

theorem read_of_opens
    {delimiters : Delimiters}
    (openingNonempty : delimiters.opening ≠ [])
    (closingNonempty : delimiters.closing ≠ [])
    (rest : Text) :
    read delimiters (delimiters.opening ++ rest) = readTag delimiters rest := by
  have opens := opens_iff.2 ⟨openingNonempty, closingNonempty,
    List.prefix_append delimiters.opening rest⟩
  rw [read, if_pos opens, List.drop_left]

/--
A tag starts with the opening delimiter and ends with the closing one.  It is
read again wherever it stands, unless a brace now follows it where there was
none.
-/
theorem read_eq_tag
    {delimiters : Delimiters}
    {unread source body : Text}
    {kind : TokenKind}
    (isTag : read delimiters unread = tag kind source body) :
    ∃ middle rest,
      delimiters.opening ≠ [] ∧
      delimiters.closing ≠ [] ∧
      source = delimiters.opening ++ (middle ++ delimiters.closing) ∧
      unread = source ++ rest ∧
      ∀ other : Text,
        (other.head? = some '}' → rest.head? = some '}') →
        read delimiters (source ++ other) = tag kind source body := by
  by_cases opens :
    (delimiters.canMarkTags && delimiters.opening.isPrefixOf unread) = true
  · rcases opens_iff.1 opens with ⟨openingNonempty, closingNonempty, rest, rfl⟩
    rw [read_of_opens openingNonempty closingNonempty, readTag_eq] at isTag
    split at isTag
    · cases isTag
    · rename_i all inner found
      cases isTag
      rcases readBody_eq_some closingNonempty closing_of_isTriple found with
        ⟨before, left, rfl, remaining, elsewhere⟩
      have parts :
          rest = modifierOf rest ++ (before ++ delimiters.closing) ++ left := by
        rw [List.append_assoc, List.append_assoc, ← remaining, drop_modifierOf]
      generalize modifierIs : modifierOf rest = modifier at *
      have nonempty : modifier ++ (before ++ delimiters.closing) ≠ [] := by
        simp [closingNonempty]
      refine ⟨modifier ++ before, left, openingNonempty, closingNonempty,
        by simp, ?_, ?_⟩
      · rw [parts]
        simp
      · intro other noBrace
        have body := elsewhere other noBrace
        have headAlike :
            (modifier ++ (before ++ delimiters.closing) ++ other).head? =
              rest.head? := by
          rw [parts]
          cases shown : modifier ++ (before ++ delimiters.closing) with
          | nil => exact absurd shown nonempty
          | cons character rest => rfl
        have modifierAlike :
            modifierOf (modifier ++ (before ++ delimiters.closing) ++ other) =
              modifier := by
          rw [modifierOf_append nonempty, ← modifierOf_append nonempty left,
            ← parts, modifierIs]
        have again := read_of_opens openingNonempty closingNonempty
          (modifier ++ (before ++ delimiters.closing) ++ other)
        rw [readTag_eq, modifierAlike, isTriple, headAlike, ← isTriple] at again
        simp only [List.append_assoc, List.drop_left, body] at again ⊢
        exact again
  · rw [read, if_neg opens] at isTag
    cases isTag

/-- A tag is not of the kind of text between tags. -/
theorem kind_of_read
    {delimiters : Delimiters}
    {unread source body : Text}
    {kind : TokenKind}
    (isTag : read delimiters unread = tag kind source body) :
    kind ≠ .text := by
  have other (modifier : Option Char) :
      (TokenKind.ofModifier modifier).1 ≠ .text := by
    unfold TokenKind.ofModifier
    split <;> exact TokenKind.noConfusion
  unfold read at isTag
  split at isTag
  · rw [readTag_eq] at isTag
    split at isTag
    · cases isTag
    · cases isTag
      exact other _
  · cases isTag

theorem read_eq_plain
    {delimiters : Delimiters}
    {unread source : Text}
    (isPlain : read delimiters unread = plain source) :
    (delimiters.canMarkTags && delimiters.opening.isPrefixOf unread) = false ∧
    source = readPlain delimiters.opening unread := by
  unfold read at isPlain
  split at isPlain
  · rename_i opens
    rw [readTag_eq] at isPlain
    split at isPlain <;> cases isPlain
  · rename_i opens
    cases isPlain
    exact ⟨Bool.eq_false_iff.2 opens, rfl⟩

theorem malformed?_eq_some
    {lexeme : Lexeme}
    {source : Text}
    (malformed : lexeme.malformed? = some source) :
    ∃ body, lexeme = tag .implicit source body ∧ body ≠ ['.'] := by
  unfold malformed? at malformed
  split at malformed
  · rename_i found body
    split at malformed
    · cases malformed
    · rename_i isMore
      cases malformed
      exact ⟨body, rfl, isMore⟩
  · cases malformed

/-- A malformed tag stands at the head of the text that it was read from. -/
theorem malformed?_isPrefix
    {delimiters : Delimiters}
    {unread source : Text}
    (malformed : (read delimiters unread).malformed? = some source) :
    unread = source ++ unread.drop source.length := by
  rcases malformed?_eq_some malformed with ⟨body, isTag, -⟩
  rcases read_eq_tag isTag with ⟨_, rest, _, _, _, rfl, _⟩
  rw [List.drop_left]

/-! ## Passing over malformed tags -/

theorem next_eq_none
    {delimiters : Delimiters}
    {skipped unread all : Text}
    (finished : next delimiters skipped unread = (all, none)) :
    all = skipped ++ unread := by
  fun_induction next delimiters skipped unread with
  | case1 skipped =>
    cases finished
    simp
  | case2 skipped unread nonempty source malformed ih =>
    rw [ih finished, List.append_assoc, ← malformed?_isPrefix malformed]
  | case3 => cases finished

theorem next_eq_some
    {delimiters : Delimiters}
    {skipped unread all : Text}
    {lexeme : Lexeme}
    (found : next delimiters skipped unread = (all, some lexeme)) :
    ∃ more rest,
      all = skipped ++ more ∧
      unread = more ++ rest ∧
      rest ≠ [] ∧
      read delimiters rest = lexeme ∧
      lexeme.malformed? = none := by
  fun_induction next delimiters skipped unread with
  | case1 => cases found
  | case2 skipped unread nonempty source malformed ih =>
    rcases ih found with
      ⟨more, rest, rfl, unreadIs, restNonempty, isRead, wellFormed⟩
    refine ⟨source ++ more, rest, by simp, ?_, restNonempty, isRead, wellFormed⟩
    rw [List.append_assoc, ← unreadIs, ← malformed?_isPrefix malformed]
  | case3 skipped unread nonempty wellFormed =>
    cases found
    exact ⟨[], unread, by simp, rfl, nonempty, rfl, wellFormed⟩

end Lexeme

end Mustache
