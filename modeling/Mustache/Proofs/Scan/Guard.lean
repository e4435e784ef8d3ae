import Mustache.Proofs.Scan.Tags
import Mustache.Proofs.Text.Line
import Mustache.Render.Tag

/-!
# Bodies that are rendered by themselves

The body of a section stands in front of its close tag.  Before it is rendered
it loses a blank line at its start and an indentation at its end, and is given
equals signs instead.  Its tags are the same all the same (`survey_guarded`),
provided that no delimiter holds a blank or an equals sign: then neither can be
a part of a delimiter, and no tag ends in one.
-/

namespace Mustache

/-- A pair whose delimiters hold neither blanks nor equals signs. -/
def Delimiters.Clean (delimiters : Delimiters) : Prop :=
  delimiters.Solid ∧ '=' ∉ delimiters.opening ++ delimiters.closing

instance (delimiters : Delimiters) : Decidable delimiters.Clean :=
  inferInstanceAs (Decidable (_ ∧ _))

/-- A pattern that lacks a sign does not reach beyond it. -/
theorem starts_of_sign
    {pattern first rest : Text}
    {sign : Char}
    (absent : sign ∉ pattern)
    (starts : pattern <+: first ++ sign :: rest) :
    pattern <+: first := by
  by_cases fits : pattern.length ≤ first.length
  · exact List.prefix_of_prefix_length_le starts (List.prefix_append first _)
      fits
  · have whole : first ++ [sign] <+: first ++ sign :: rest := ⟨rest, by simp⟩
    have longer : (first ++ [sign]).length ≤ pattern.length := by
      rw [List.length_append]
      simp only [List.length_singleton]
      omega
    have within := List.prefix_of_prefix_length_le whole starts longer
    exact absurd (within.subset (by simp)) absent

variable {delimiters final : Delimiters} {tags : List Piece}

/--
Where no tag opens, none opens with an equals sign somewhere behind instead.
-/
theorem not_opensAt_of_sign
    (clean : delimiters.Clean)
    {text after : Text}
    (closed : delimiters.opensAt (text ++ after) = false)
    (rest : Text) :
    delimiters.opensAt (text ++ '=' :: rest) = false := by
  apply Bool.eq_false_iff.2
  intro opens
  rcases opensAt_iff.1 opens with ⟨opening, closing, starts⟩
  have absent : '=' ∉ delimiters.opening := fun member =>
    clean.2 (List.mem_append_left _ member)
  have within := starts_of_sign absent starts
  rw [opensAt_iff.2 ⟨opening, closing, List.prefix_append_of_prefix within⟩]
    at closed
  cases closed

theorem pairsOf_after
    (piece : Piece)
    (tags : List Piece) :
    ∀ pair ∈ pairsOf (piece.delimitersAfter delimiters) tags,
      pair ∈ pairsOf delimiters (piece :: tags) := by
  intro pair member
  cases isInstalled : piece.delimiters with
  | none =>
    rw [Piece.delimitersAfter, isInstalled] at member
    rwa [pairsOf, List.filterMap_cons_none isInstalled]
  | some installed =>
    rw [Piece.delimitersAfter, isInstalled] at member
    rw [pairsOf, List.filterMap_cons_some isInstalled]
    exact List.mem_cons_of_mem _ member

/--
A tag that is followed by blanks only at the end of a text stands before them.
-/
theorem split_of_solid_last
    {source text kept blanks : Text}
    {last : Char}
    (isLast : source.getLast? = some last)
    (solid : Text.isBlank last = false)
    (blank : ∀ character ∈ blanks, Text.isBlank character = true)
    (split : source ++ text = kept ++ blanks) :
    ∃ left, kept = source ++ left ∧ text = left ++ blanks := by
  rcases List.append_eq_append_iff.1 split with
    ⟨left, isKept, isText⟩ | ⟨within, isSource, isBlanks⟩
  · exact ⟨left, isKept, isText⟩
  · rcases List.eq_nil_or_concat within with rfl | ⟨others, character, rfl⟩
    · exact ⟨[], by simpa using isSource.symm, by simpa using isBlanks.symm⟩
    · rw [List.concat_eq_append] at isSource isBlanks
      have same : character = last := by simpa [isSource] using isLast
      have isBlank := blank last (by simp [isBlanks, same])
      rw [solid] at isBlank
      cases isBlank

namespace TagsIn

variable {whole kept blanks line left after : Text}

/--
A tag is the same when an equals sign comes in place of the blanks behind it.
-/
theorem read_of_sign
    {kind : TokenKind}
    {source body text : Text}
    (isRead :
      Lexeme.read delimiters (source ++ (text ++ after)) =
        .tag kind source body)
    (split : text = left ++ blanks)
    (rest : Text) :
    Lexeme.read delimiters (source ++ (left ++ '=' :: rest)) =
      .tag kind source body := by
  rcases Lexeme.read_eq_tag isRead with
    ⟨-, behind, -, -, -, isBehind, elsewhere⟩
  apply elsewhere
  intro isBrace
  rw [← List.append_cancel_left isBehind, split]
  cases left with
  | nil => cases isBrace
  | cons first left => exact isBrace

/--
Blanks at the end are no part of a tag, and neither is an equals sign in their
place.
-/
theorem cut_blanks
    (made : TagsIn delimiters whole after tags final)
    (clean : ∀ pair ∈ pairsOf delimiters tags, pair.Clean)
    (split : whole = kept ++ blanks)
    (blank : ∀ character ∈ blanks, Text.isBlank character = true)
    (rest : Text) :
    TagsIn delimiters kept ('=' :: rest) tags final := by
  induction made generalizing kept blanks with
  | done delimiters after =>
    rw [(List.append_eq_nil_iff.1 split.symm).1]
    exact .done delimiters _
  | @character delimiters _ character text after tags closed further ih =>
    cases kept with
    | nil =>
      rw [List.nil_append] at split
      have others : ∀ character ∈ text, Text.isBlank character = true :=
        fun other member =>
        blank other (by rw [← split]; exact List.mem_cons_of_mem _ member)
      exact ih clean rfl others
    | cons first kept =>
      rw [List.cons_append, List.cons.injEq] at split
      rcases split with ⟨rfl, rfl⟩
      refine .character ?_ (ih clean rfl blank)
      have ahead :
          delimiters.opensAt ((character :: kept) ++ (blanks ++ after)) =
            false := by
        simpa using closed
      exact not_opensAt_of_sign (clean delimiters List.mem_cons_self) ahead rest
  | @malformed delimiters _ kind source body text after tags isRead isMalformed
      further ih =>
    have solid := (clean delimiters List.mem_cons_self).1
    rcases (Lexeme.enclose_of_read isRead).last_solid solid with
      ⟨last, isLast, notBlank⟩
    rcases split_of_solid_last isLast notBlank blank split with
      ⟨left, rfl, isText⟩
    exact .malformed (read_of_sign isRead isText rest) isMalformed
      (ih clean isText blank)
  | @tag delimiters _ kind source body text after piece tags isRead wellFormed
      made further ih =>
    have solid := (clean delimiters List.mem_cons_self).1
    rcases (Lexeme.enclose_of_read isRead).last_solid solid with
      ⟨last, isLast, notBlank⟩
    rcases split_of_solid_last isLast notBlank blank split with
      ⟨left, rfl, isText⟩
    have cleanAfter :
        ∀ pair ∈ pairsOf (piece.delimitersAfter delimiters) tags, pair.Clean :=
      fun pair member => clean pair (pairsOf_after piece tags pair member)
    exact .tag (read_of_sign isRead isText rest) wellFormed made
      (ih cleanAfter isText blank)

/-- Where no tag opens, the first character can be taken away. -/
theorem tail
    {character : Char}
    {rest : Text}
    (made : TagsIn delimiters whole after tags final)
    (split : whole = character :: rest)
    (closed : delimiters.opensAt (whole ++ after) = false) :
    TagsIn delimiters rest after tags final := by
  cases made with
  | done => cases split
  | character _ further =>
    cases split
    exact further
  | malformed isRead | tag isRead =>
    have opens := opensAt_of_read isRead
    rw [← List.append_assoc, closed] at opens
    cases opens

/-- A blank line at the start can be taken away. -/
theorem drop_blanks
    (made : TagsIn delimiters (line ++ left) after tags final)
    (solid : delimiters.Solid)
    (blank : ∀ character ∈ line, Text.isBlank character = true) :
    TagsIn delimiters left after tags final := by
  induction line with
  | nil => exact made
  | cons character line ih =>
    have closed :
        delimiters.opensAt (character :: line ++ left ++ after) = false :=
      not_opensAt_of_isBlank solid (blank character List.mem_cons_self) _
    exact ih (made.tail rfl closed) fun other member =>
      blank other (List.mem_cons_of_mem _ member)

end TagsIn

/-- The body of a section, cut and guarded, is made of the same tags. -/
theorem survey_guarded
    {line body indentation after : Text}
    (made : TagsIn delimiters (line ++ (body ++ indentation)) after tags final)
    (balanced : nests [] tags = some [])
    (clean : ∀ pair ∈ pairsOf delimiters tags, pair.Clean)
    (blankLine : ∀ character ∈ line, Text.isBlank character = true)
    (blankIndentation :
      ∀ character ∈ indentation, Text.isBlank character = true)
    (startsLine : Bool) :
    survey delimiters [] (guarded body startsLine) = (tags, none) := by
  have cleanFirst := clean delimiters List.mem_cons_self
  have cleanLast := clean final made.final_mem
  have bare :=
    ((made.drop_blanks cleanFirst.1 blankLine).cut_blanks clean rfl
      blankIndentation [])
  have sign (pair : Delimiters) (isClean : pair.Clean) (rest : Text) :
      pair.opensAt ('=' :: rest) = false :=
    not_opensAt_of_notMem
      (fun member => isClean.2 (List.mem_append_left _ member)) rest
  have ended : TagsIn delimiters (body ++ ['=']) [] tags final := by
    have last : TagsIn final ['='] [] [] final :=
      .character (sign final cleanLast _) (.done final [])
    have whole := bare.append last
    rwa [List.append_nil] at whole
  cases startsLine with
  | true => exact survey_of_tagsIn ended balanced
  | false =>
    have started : TagsIn delimiters ('=' :: body ++ ['=']) [] tags final :=
      .character (sign delimiters cleanFirst _) ended
    exact survey_of_tagsIn started balanced

section Paired

variable
    {after : Delimiters}
    {unread skipped rest body inner : Text}
    {opener closer : Piece}

/--
The body of a section has the tags that it has in the template, and no fault of
its own.
-/
theorem survey_guarded_of_paired
    (clean : ∀ pair ∈ pairsIn delimiters unread, pair.Clean)
    (result :
      scanNode delimiters unread =
        .found skipped (.paired opener body closer) after rest)
    (trimmed : body.TrimsTo inner)
    (startsLine : Bool) :
    ∃ tags,
      survey delimiters [] (guarded inner startsLine) = (tags, none) ∧
      ∀ tag ∈ tags, tag ∈ (survey delimiters [] unread).1 := by
  rcases survey_of_node_paired result with ⟨tags, made, balanced, surveyed⟩
  have subset : ∀ tag ∈ tags, tag ∈ (survey delimiters [] unread).1 := by
    intro tag member
    rw [surveyed]
    simp [member]
  have cleanTags : ∀ pair ∈ pairsOf delimiters tags, pair.Clean :=
    fun pair member =>
    clean pair (pairsOf_subset subset delimiters pair member)
  rcases trimmed with ⟨line, indentation, rfl, blankLine, blankIndentation⟩
  exact ⟨tags,
    survey_guarded made balanced cleanTags blankLine blankIndentation
      startsLine, subset⟩

/-- The body of a section is read from pairs that the section is read from. -/
theorem pairsIn_guarded_subset
    (clean : ∀ pair ∈ pairsIn delimiters unread, pair.Clean)
    (result :
      scanNode delimiters unread =
        .found skipped (.paired opener body closer) after rest)
    (trimmed : body.TrimsTo inner)
    (startsLine : Bool) :
    ∀ pair ∈ pairsIn delimiters (guarded inner startsLine),
      pair ∈ pairsIn delimiters unread := by
  rcases survey_guarded_of_paired clean result trimmed startsLine with
    ⟨tags, surveyed, subset⟩
  rw [pairsIn, surveyed]
  exact pairsOf_subset subset delimiters

/-- The body of a section fits into the text that the section was read from. -/
theorem length_guarded_lt
    (result :
      scanNode delimiters unread =
        .found skipped (.paired opener body closer) after rest)
    (trimmed : body.TrimsTo inner)
    (startsLine : Bool) :
    (guarded inner startsLine).length < unread.length := by
  rcases scanNode_eq_paired result with ⟨-, -, opening, closing⟩
  have split := (scanNode_eq_found result).1
  have first := opening.two_le_length
  have last := closing.two_le_length
  have longer : (guarded inner startsLine).length ≤ inner.length + 2 := by
    cases startsLine <;> simp [guarded]
  rcases trimmed with ⟨line, indentation, rfl, -⟩
  rw [split]
  simp only [Block.source, List.length_append]
  omega

end Paired

end Mustache
