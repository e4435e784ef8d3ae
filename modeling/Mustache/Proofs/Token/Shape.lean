import Mustache.Proofs.Token.Lexeme

/-!
# The shape of a lexeme

Text goes on to the nearest opening delimiter, and a tag to its nearest closing
delimiter.  Nearest means that the delimiter starts at no earlier place
(`Text.AbsentFrom`), whatever it overlaps with: with itself, with the other
delimiter, with the modifier or with what stands behind the lexeme.

A tag is its opening delimiter, its modifier, its body and its closing delimiter
(`Delimiters.TagAt`).  Only a triple tag may go on past a place where two braces
start, because a third one follows them.
-/

namespace Mustache

namespace Text

/--
A pattern starts at no place within a text, though it may reach into what comes
after.
-/
def AbsentFrom (pattern within after : Text) : Prop :=
  ∀ earlier later,
    within = earlier ++ later → later ≠ [] → ¬pattern <+: later ++ after

variable {pattern within after : Text} {character : Char}

theorem absentFrom_nil (pattern after : Text) :
    pattern.AbsentFrom [] after := by
  intro earlier later split nonempty
  exact absurd (List.append_eq_nil_iff.1 split.symm).2 nonempty

theorem absentFrom_cons
    (here : ¬pattern <+: character :: (within ++ after))
    (further : pattern.AbsentFrom within after) :
    pattern.AbsentFrom (character :: within) after := by
  intro earlier later split nonempty
  cases earlier with
  | nil =>
    rw [List.nil_append] at split
    rw [← split]
    exact here
  | cons first earlier =>
    rw [List.cons_append, List.cons.injEq] at split
    exact further earlier later split.2 nonempty

/--
A pattern that is not in a text and holds no sign starts nowhere up to a sign
behind it.
-/
theorem absentFrom_sign
    {sign : Char}
    (noSign : sign ∉ pattern)
    (absent : ¬pattern <:+: within)
    (after : Text) :
    pattern.AbsentFrom (within ++ [sign]) after := by
  intro earlier later split nonempty starts
  rcases List.eq_nil_or_concat later with rfl | ⟨before, last, rfl⟩
  · exact nonempty rfl
  rw [List.concat_eq_append] at split starts
  rw [← List.append_assoc] at split
  rcases List.append_inj' split rfl with ⟨rfl, same⟩
  cases same
  rw [List.append_assoc, List.singleton_append] at starts
  rcases List.prefix_or_prefix_of_prefix starts
      (List.prefix_append before (sign :: after)) with inside | ⟨beyond, rfl⟩
  · exact absent
      (inside.isInfix.trans (List.suffix_append earlier before).isInfix)
  · rcases beyond with _ | ⟨first, beyond⟩
    · exact absent (by simpa using (List.suffix_append earlier before).isInfix)
    · have further := (List.prefix_append_right_inj before).1 starts
      rcases List.cons_prefix_cons.1 further with ⟨rfl, -⟩
      exact noSign (by simp)

/--
A text up to a pattern, and what is left: nothing, or a text that starts with
the pattern.
-/
theorem upTo_spec (pattern text : Text) :
    ∃ rest,
      text = upTo pattern [] text ++ rest ∧
      pattern.AbsentFrom (upTo pattern [] text) rest ∧
      (rest = [] ∨ pattern <+: rest) := by
  induction text with
  | nil => exact ⟨[], rfl, absentFrom_nil pattern [], .inl rfl⟩
  | cons character text ih =>
    by_cases starts : pattern <+: character :: text
    · rw [upTo_nil_of_starts starts]
      exact ⟨character :: text, rfl, absentFrom_nil _ _, .inr starts⟩
    · rcases ih with ⟨rest, isText, absent, ends⟩
      rw [upTo_cons_of_not_starts starts]
      refine ⟨rest, by rw [List.cons_append, ← isText],
        absentFrom_cons ?_ absent, ends⟩
      rwa [← isText]

end Text

namespace Lexeme

/--
A stretch of text ends at the end of all, or where the opening delimiter stands.
-/
theorem readPlain_ends (opening unread : Text) :
    ∃ rest,
      unread = readPlain opening unread ++ rest ∧
      (rest = [] ∨ opening ≠ [] ∧ opening <+: rest) ∧
      (opening ≠ [] → ¬opening <+: unread →
        opening.AbsentFrom (readPlain opening unread) rest) := by
  cases unread with
  | nil => exact ⟨[], rfl, .inl rfl, fun _ _ => Text.absentFrom_nil opening []⟩
  | cons character text =>
    rw [readPlain_cons]
    cases opening with
    | nil => exact ⟨[], by simp, .inl rfl, fun nonempty => absurd rfl nonempty⟩
    | cons first opening =>
      rcases Text.upTo_spec (first :: opening) text with
        ⟨rest, isText, absent, ends⟩
      refine ⟨rest, ?_, ?_, ?_⟩
      · simp only
          [List.isEmpty_cons, Bool.false_eq_true, if_false, List.cons_append]
        rw [← isText]
      · exact ends.imp id fun starts => ⟨List.cons_ne_nil first opening, starts⟩
      · intro _ notHere
        apply Text.absentFrom_cons _ absent
        rwa [← isText]

/--
The body of a tag that is not a triple one ends at the nearest closing
delimiter.
-/
theorem readBody_nearest
    {closing passed body text all inner : Text}
    (found : readBody closing false passed body text = some (all, inner)) :
    ∃ within rest,
      text = within ++ (closing ++ rest) ∧
      all = passed.reverse ++ (within ++ closing) ∧
      inner = body.reverse ++ within ∧
      closing.AbsentFrom within (closing ++ rest) := by
  induction text generalizing passed body with
  | nil => cases found
  | cons character text ih =>
    simp only [readBody, Bool.false_and, Bool.false_eq_true, if_false] at found
    split at found
    · rename_i closes
      cases found
      rcases List.isPrefixOf_iff_prefix.1 closes with ⟨rest, isText⟩
      exact ⟨[], rest, by simp [isText], by simp, by simp,
        Text.absentFrom_nil _ _⟩
    · rename_i notClosing
      rcases ih found with ⟨within, rest, rfl, rfl, rfl, absent⟩
      refine ⟨character :: within, rest, rfl, by simp, by simp, ?_⟩
      apply Text.absentFrom_cons _ absent
      exact fun starts => notClosing (List.isPrefixOf_iff_prefix.2 starts)

/--
Up to the first closing delimiter, a tag takes all characters into its body.
-/
theorem readBody_absent
    {closing within rest : Text}
    {triple : Bool}
    (absent : closing.AbsentFrom within rest)
    (braces : triple = true → closing = ['}', '}'])
    (passed body : Text) :
    readBody closing triple passed body (within ++ rest) =
      readBody closing triple (within.reverse ++ passed)
        (within.reverse ++ body) rest := by
  induction within generalizing passed body with
  | nil => rfl
  | cons character within ih =>
    have here := absent [] (character :: within) rfl (List.cons_ne_nil _ _)
    rw [List.cons_append] at here
    have notTriple :
        ¬(triple &&
            ['}', '}', '}'].isPrefixOf
              (character :: (within ++ rest))) = true := by
      intro isTriple
      rcases Bool.and_eq_true_iff.1 isTriple with ⟨triple, three⟩
      have two : closing <+: ['}', '}', '}'] := by
        rw [braces triple]
        exact ⟨['}'], rfl⟩
      exact here (two.trans (List.isPrefixOf_iff_prefix.1 three))
    have further : closing.AbsentFrom within rest := by
      intro earlier later split
      exact absent (character :: earlier) later (by rw [split]; rfl)
    rw [List.cons_append, readBody, if_neg notTriple,
      if_neg fun closes => here (List.isPrefixOf_iff_prefix.1 closes),
      ih further]
    simp

/--
A tag that is not a triple one is read up to its nearest closing delimiter.
-/
theorem read_of_nearest
    {delimiters : Delimiters}
    (openingNonempty : delimiters.opening ≠ [])
    (closingNonempty : delimiters.closing ≠ [])
    {modifier body rest following : Text}
    (isFollowing :
      following = modifier ++ (body ++ (delimiters.closing ++ rest)))
    (isModifier : modifierOf following = modifier)
    (notTriple : isTriple delimiters following = false)
    (absent : delimiters.closing.AbsentFrom body (delimiters.closing ++ rest)) :
    read delimiters (delimiters.opening ++ following) =
      .tag (TokenKind.ofModifier following.head?).1
        (delimiters.opening ++ (modifier ++ (body ++ delimiters.closing)))
        body := by
  have dropped :
      following.drop modifier.length =
        body ++ (delimiters.closing ++ rest) := by
    rw [isFollowing, List.drop_left]
  have single :
      ¬(false && ['}', '}', '}'].isPrefixOf (delimiters.closing ++ rest)) =
        true :=
    Bool.false_ne_true
  have never : false = true → delimiters.closing = ['}', '}'] :=
    fun isTrue => by cases isTrue
  rw [read_of_opens openingNonempty closingNonempty, readTag_eq, isModifier,
    notTriple, dropped, readBody_absent absent never,
    readBody_of_closing closingNonempty single]
  simp

end Lexeme

/--
A tag of the given kind, with its source, its body and what follows it: the
opening delimiter, the modifier that tells the kind, the body, and the closing
delimiter.
-/
inductive Delimiters.TagAt (delimiters : Delimiters) :
    TokenKind → Text → Text → Text → Prop
  /-- The tag ends with the first closing delimiter after its modifier. -/
  | nearest
      {kind : TokenKind}
      {modifier body rest following : Text}
      (isFollowing :
        following = modifier ++ (body ++ (delimiters.closing ++ rest)))
      (isModifier : modifier = Lexeme.modifierOf following)
      (isKind : kind = (TokenKind.ofModifier following.head?).1)
      (absent :
        delimiters.closing.AbsentFrom body (delimiters.closing ++ rest)) :
      delimiters.TagAt kind
        (delimiters.opening ++ (modifier ++ (body ++ delimiters.closing))) body
        rest
  /--
  The tag has a brace for its modifier and two braces for its closing delimiter.
  -/
  | triple
      {within body rest : Text}
      (braces : delimiters.closing = ['}', '}']) :
      delimiters.TagAt .unescaped
        (delimiters.opening ++ ('{' :: (within ++ delimiters.closing))) body
        rest

/-- Where a tag is read, a tag is. -/
theorem Lexeme.tagAt_of_read
    {delimiters : Delimiters}
    {unread source body : Text}
    {kind : TokenKind}
    (isTag : read delimiters unread = tag kind source body) :
    ∃ rest,
      unread = source ++ rest ∧ delimiters.TagAt kind source body rest := by
  rcases opens_iff.1 (opens_of_read isTag) with
    ⟨openingNonempty, closingNonempty, following, rfl⟩
  rw [read_of_opens openingNonempty closingNonempty, readTag_eq] at isTag
  split at isTag
  · cases isTag
  · rename_i all inner found
    cases isTag
    have parts := drop_modifierOf following
    cases isTripleTag : isTriple delimiters following with
    | false =>
      rw [isTripleTag] at found
      rcases readBody_nearest found with
        ⟨within, rest, isDropped, rfl, rfl, absent⟩
      rw [isDropped] at parts
      refine ⟨rest, ?_, ?_⟩
      · simp only [List.append_assoc, List.reverse_nil, List.nil_append]
        rw [parts]
      · have shape :
            delimiters.TagAt (TokenKind.ofModifier following.head?).1
              (delimiters.opening ++
                (modifierOf following ++ (body ++ delimiters.closing)))
              body rest :=
          .nearest parts.symm rfl rfl absent
        simpa using shape
    | true =>
      have head : following.head? = some '{' := by
        simpa using (Bool.and_eq_true_iff.1 isTripleTag).1
      rcases readBody_eq_some closingNonempty closing_of_isTriple found with
        ⟨within, rest, rfl, isDropped, -⟩
      rcases List.head?_eq_some_iff.1 head with ⟨others, rfl⟩
      rw [isDropped] at parts
      refine ⟨rest, ?_, ?_⟩
      · rw [← parts]
        simp [modifierOf, TokenKind.ofModifier]
      · have shape :
            delimiters.TagAt .unescaped
              (delimiters.opening ++ ('{' :: (within ++ delimiters.closing)))
              body rest :=
          .triple (closing_of_isTriple isTripleTag)
        simpa [modifierOf, TokenKind.ofModifier] using shape

end Mustache
