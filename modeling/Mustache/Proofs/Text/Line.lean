import Mathlib.Data.List.TakeWhile
import Mustache.Text.Line

/-!
# The line around a place, cut out of its text

The indentation before a place is the end of the text before it, and the rest of
its line the start of the text after it, and both are blank.  The two searches
for the edges of the line find just that (`indentationAtEnd?_eq_some_iff`,
`lineAtStart?_eq_some_iff`).  Only the last line of the text before a place
counts: from a line break on, it does not matter what stands further up
(`blankEnd_append`).

A section shows its body between two tags.  From inside a body that is nothing
but inline blanks, the line reaches a tag on either side, and no tag is alone
there.
-/

namespace Mustache.Text

theorem isBlank_of_isInlineBlank
    {character : Char}
    (inline : isInlineBlank character = true) :
    isBlank character = true :=
  (Bool.and_eq_true_iff.1 inline).1

theorem not_isLineBreak_of_isInlineBlank
    {character : Char}
    (inline : isInlineBlank character = true) :
    isLineBreak character = false := by
  simpa using (Bool.and_eq_true_iff.1 inline).2

/-- Inline blanks are blanks. -/
theorem blank_of_inlineBlank
    {blanks : Text}
    (inline : ∀ character ∈ blanks, isInlineBlank character = true) :
    ∀ character ∈ blanks, isBlank character = true :=
  fun character member => isBlank_of_isInlineBlank (inline character member)

theorem isBlank_of_isLineBreak
    {character : Char}
    (breaks : isLineBreak character = true) :
    isBlank character = true := by
  rcases Bool.or_eq_true_iff.1 breaks with isFeed | isReturn
  · rw [beq_iff_eq.1 isFeed]
    decide
  · rw [beq_iff_eq.1 isReturn]
    decide

theorem not_isInlineBlank_of_not_isBlank
    {character : Char}
    (solid : isBlank character = false) :
    isInlineBlank character = false := by
  simp [isInlineBlank, solid]

theorem not_isLineBreak_of_not_isBlank
    {character : Char}
    (solid : isBlank character = false) :
    isLineBreak character = false := by
  cases breaks : isLineBreak character with
  | false => rfl
  | true => rw [isBlank_of_isLineBreak breaks] at solid; cases solid

theorem not_isInlineBlank_of_isLineBreak
    {character : Char}
    (breaks : isLineBreak character = true) :
    isInlineBlank character = false := by
  simp [isInlineBlank, breaks]

/-- A text is another one with nothing but blanks around it. -/
def TrimsTo (text inner : Text) : Prop :=
  ∃ line indentation, text = line ++ (inner ++ indentation) ∧
    (∀ character ∈ line, isBlank character = true) ∧
    ∀ character ∈ indentation, isBlank character = true

/--
All characters of a text have a property, or there is a first one that has not.
-/
theorem all_or_split
    (property : Char → Bool)
    (text : Text) :
    (∀ character ∈ text, property character = true) ∨
    ∃ before first rest,
      text = before ++ first :: rest ∧
      (∀ character ∈ before, property character = true) ∧
      property first = false := by
  induction text with
  | nil => exact .inl (by simp)
  | cons character rest ih =>
    cases holds : property character with
    | false => exact .inr ⟨[], character, rest, rfl, by simp, holds⟩
    | true =>
      rcases ih with all | ⟨before, first, rest, rfl, all, fails⟩
      · exact .inl (by simpa [holds] using all)
      · exact .inr ⟨character :: before, first, rest, rfl,
          by simpa [holds] using all, fails⟩

/--
A text is nothing but inline blanks, or has a first character that is none.
-/
theorem inline_or_split (text : Text) :
    (∀ character ∈ text, isInlineBlank character = true) ∨
    ∃ blanks first rest,
      text = blanks ++ first :: rest ∧
      (∀ character ∈ blanks, isInlineBlank character = true) ∧
      isInlineBlank first = false :=
  all_or_split isInlineBlank text

/-! ## Indentation -/

theorem indentationAtEnd?_of_inline
    {reversed : Text}
    (inline : ∀ character ∈ reversed, isInlineBlank character = true) :
    indentationAtEnd? reversed = some reversed.reverse := by
  simp only [indentationAtEnd?, List.takeWhile_eq_self_iff.2 inline,
    List.dropWhile_eq_nil_iff.2 inline]

theorem indentationAtEnd?_of_split
    {blanks rest : Text}
    {first : Char}
    (inline : ∀ character ∈ blanks, isInlineBlank character = true)
    (notInline : isInlineBlank first = false) :
    indentationAtEnd? (blanks ++ first :: rest) =
      if isLineBreak first then some blanks.reverse else none := by
  simp [indentationAtEnd?, List.takeWhile_append_of_pos inline,
    List.dropWhile_append_of_pos inline, notInline]

/-- The last line of a text is an indentation. -/
structure BlankEnd (before indentation : Text) : Prop where
  inline : ∀ character ∈ indentation, isInlineBlank character = true
  starts : ∃ kept, before = kept ++ indentation ∧
    ∀ last ∈ kept.getLast?, isLineBreak last = true

theorem indentationAtEnd?_eq_some_iff {before indentation : Text} :
    indentationAtEnd? before.reverse = some indentation ↔
      BlankEnd before indentation := by
  constructor
  · intro found
    rcases inline_or_split before.reverse with
      inline | ⟨blanks, first, rest, split, inline, outside⟩
    · rw [indentationAtEnd?_of_inline inline, List.reverse_reverse] at found
      cases found
      exact ⟨fun character member =>
          inline character (List.mem_reverse.2 member), [], by simp⟩
    · rw [split, indentationAtEnd?_of_split inline outside] at found
      split at found
      · rename_i breaks
        cases found
        refine ⟨fun character member =>
            inline character (List.mem_reverse.1 member),
          (first :: rest).reverse, ?_, ?_⟩
        · rw [← List.reverse_append, ← split, List.reverse_reverse]
        · simpa using breaks
      · cases found
  · rintro ⟨inline, kept, rfl, breaks⟩
    have reversed :
        ∀ character ∈ indentation.reverse, isInlineBlank character = true :=
      fun character member => inline character (List.mem_reverse.1 member)
    rcases List.eq_nil_or_concat kept with rfl | ⟨start, last, rfl⟩
    · rw [List.nil_append, indentationAtEnd?_of_inline reversed,
        List.reverse_reverse]
    · have isBreak : isLineBreak last = true := breaks last (by simp)
      have split :
          indentationAtEnd? (indentation.reverse ++ last :: start.reverse) =
            some indentation := by
        rw [indentationAtEnd?_of_split reversed
            (not_isInlineBlank_of_isLineBreak isBreak), if_pos isBreak,
          List.reverse_reverse]
      simpa using split

theorem indentationAtEnd?_eq_some
    {text indentation : Text}
    (found : indentationAtEnd? text.reverse = some indentation) :
    ∃ kept,
      text = kept ++ indentation ∧
      ∀ character ∈ indentation, isInlineBlank character = true := by
  rcases indentationAtEnd?_eq_some_iff.1 found with ⟨inline, kept, isText, -⟩
  exact ⟨kept, isText, inline⟩

theorem blankEnd_append
    {text : Text}
    (broken : ∃ character ∈ text, isLineBreak character = true)
    (before indentation : Text) :
    BlankEnd (before ++ text) indentation ↔ BlankEnd text indentation := by
  rw [← indentationAtEnd?_eq_some_iff, ← indentationAtEnd?_eq_some_iff]
  rcases inline_or_split text.reverse with
    inline | ⟨blanks, first, rest, split, inline, outside⟩
  · rcases broken with ⟨character, member, breaks⟩
    have blank := inline character (List.mem_reverse.2 member)
    rw [not_isInlineBlank_of_isLineBreak breaks] at blank
    cases blank
  · rw [List.reverse_append, split, List.append_assoc, List.cons_append,
      indentationAtEnd?_of_split inline outside,
      indentationAtEnd?_of_split inline outside]

/--
The indentation at the end of a body, if its last line starts in the body.
-/
def innerIndentation? (body : Text) : Option Text :=
  if body.all isInlineBlank then none else indentationAtEnd? body.reverse

/--
There is no indentation at the end of a text that ends with a character that is
no blank.
-/
theorem indentationAtEnd?_of_getLast
    {text : Text}
    {last : Char}
    (isLast : text.getLast? = some last)
    (solid : isBlank last = false) :
    indentationAtEnd? text.reverse = none := by
  rcases List.getLast?_eq_some_iff.1 isLast with ⟨start, rfl⟩
  have notInline := not_isInlineBlank_of_not_isBlank solid
  have noBreak := not_isLineBreak_of_not_isBlank solid
  have split : indentationAtEnd? ([] ++ last :: start.reverse) = none := by
    rw [indentationAtEnd?_of_split (by simp) notInline, noBreak]
    rfl
  simpa using split

/--
A text whose last line is not blank has a character there that is no blank.
-/
theorem split_of_indentationAtEnd?_eq_none
    {text : Text}
    (inked : indentationAtEnd? text.reverse = none) :
    ∃ start last blanks,
      text = start ++ last :: blanks ∧
      (∀ character ∈ blanks, isInlineBlank character = true) ∧
      isInlineBlank last = false ∧
      isLineBreak last = false := by
  rcases inline_or_split text.reverse with
    inline | ⟨blanks, last, rest, isText, inline, notInline⟩
  · rw [indentationAtEnd?_of_inline inline] at inked
    cases inked
  · rw [isText, indentationAtEnd?_of_split inline notInline] at inked
    refine ⟨rest.reverse, last, blanks.reverse, ?_, ?_, notInline, ?_⟩
    · rw [← List.reverse_reverse text, isText]
      simp
    · exact fun character member => inline character (List.mem_reverse.1 member)
    · split at inked
      · cases inked
      · rename_i noBreak
        exact Bool.eq_false_iff.2 noBreak

/--
What stands before the last line of a text has no part in its indentation.
-/
theorem indentationAtEnd?_append_eq_none
    {text : Text}
    (inked : indentationAtEnd? text.reverse = none)
    (before : Text) :
    indentationAtEnd? (before ++ text).reverse = none := by
  rcases split_of_indentationAtEnd?_eq_none inked with
    ⟨start, last, blanks, rfl, inline, notInline, noBreak⟩
  have reversed :
      ∀ character ∈ blanks.reverse, isInlineBlank character = true :=
    fun character member => inline character (List.mem_reverse.1 member)
  have split :
      indentationAtEnd?
          (blanks.reverse ++ last ::
            (start.reverse ++ before.reverse)) = none := by
    rw [indentationAtEnd?_of_split reversed notInline, noBreak]
    rfl
  simpa using split

/--
After a text whose last line is not blank, the indentation at the end of a body
is found in the body.
-/
theorem indentationAtEnd?_append
    {before : Text}
    (inked : indentationAtEnd? before.reverse = none)
    (body : Text) :
    indentationAtEnd? (before ++ body).reverse = body.innerIndentation? := by
  rcases inline_or_split body.reverse with
    inline | ⟨blanks, first, rest, isBody, inline, notBlank⟩
  · have all : body.all isInlineBlank = true := by simpa using inline
    rcases split_of_indentationAtEnd?_eq_none inked with
      ⟨start, last, blanks, rfl, inlineBefore, notInline, noBreak⟩
    have further : ∀ character ∈ body.reverse ++ blanks.reverse,
        isInlineBlank character = true := by
      intro character member
      rcases List.mem_append.1 member with inBody | inBefore
      · exact inline character inBody
      · exact inlineBefore character (List.mem_reverse.1 inBefore)
    have split :
        indentationAtEnd?
            (body.reverse ++ blanks.reverse ++ last ::
              start.reverse) = none := by
      rw [indentationAtEnd?_of_split further notInline, noBreak]
      rfl
    simpa [innerIndentation?, all] using split
  · have notAll : ¬body.all isInlineBlank = true := by
      intro all
      have member : first ∈ body := List.mem_reverse.1 (by simp [isBody])
      rw [List.all_eq_true.1 all first member] at notBlank
      cases notBlank
    rw [innerIndentation?, if_neg notAll, List.reverse_append, isBody,
      List.append_assoc]
    rw [indentationAtEnd?_of_split inline notBlank, List.cons_append,
      indentationAtEnd?_of_split inline notBlank]

/--
Before a text that starts with no blank, it does not matter what stands further
up.
-/
theorem indentationAtEnd?_append_of_head
    {text : Text}
    {first : Char}
    (isFirst : text.head? = some first)
    (solid : isBlank first = false)
    (before : Text) :
    indentationAtEnd? (before ++ text).reverse =
      indentationAtEnd? text.reverse := by
  rcases List.head?_eq_some_iff.1 isFirst with ⟨rest, rfl⟩
  have inked (before : Text) :
      indentationAtEnd? (before ++ [first]).reverse = none :=
    indentationAtEnd?_of_getLast List.getLast?_concat solid
  calc
    indentationAtEnd? (before ++ first :: rest).reverse
    _ = indentationAtEnd? (before ++ [first] ++ rest).reverse := by simp
    _ = innerIndentation? rest := indentationAtEnd?_append (inked before) rest
    _ = indentationAtEnd? (first :: rest).reverse :=
      (indentationAtEnd?_append (inked []) rest).symm

/-! ## The rest of the line -/

theorem lineAtStart?_of_inline
    {text : Text}
    (inline : ∀ character ∈ text, isInlineBlank character = true) :
    lineAtStart? text = some text := by
  simp only [lineAtStart?, List.takeWhile_eq_self_iff.2 inline,
    List.dropWhile_eq_nil_iff.2 inline]

/--
The line break at the start of a text that starts with the given character.
-/
def breakAtStart? (first : Char) (rest : Text) : Option Text :=
  if first = '\r' ∧ rest.head? = some '\n' then some ['\r', '\n']
  else if isLineBreak first then some [first]
  else none

theorem lineAtStart?_of_split
    {blanks rest : Text}
    {first : Char}
    (inline : ∀ character ∈ blanks, isInlineBlank character = true)
    (notInline : isInlineBlank first = false) :
    lineAtStart? (blanks ++ first :: rest) =
      (breakAtStart? first rest).map (blanks ++ ·) := by
  have taken : (blanks ++ first :: rest).takeWhile isInlineBlank = blanks := by
    simp [List.takeWhile_append_of_pos inline, notInline]
  have dropped :
      (blanks ++ first :: rest).dropWhile isInlineBlank = first :: rest := by
    simp [List.dropWhile_append_of_pos inline, notInline]
  simp only [lineAtStart?, taken, dropped, breakAtStart?]
  split
  · rename_i nothing
    cases nothing
  · rename_i tail both
    cases both
    simp
  · rename_i character tail notBoth both
    cases both
    have single : ¬(first = '\r' ∧ rest.head? = some '\n') := by
      rintro ⟨isReturn, isFeed⟩
      rcases List.head?_eq_some_iff.1 isFeed with ⟨tail, isTail⟩
      exact notBoth tail isReturn isTail
    rw [if_neg single]
    split <;> rfl

/--
One line break before a text.  A carriage return and a line feed after it are
one.
-/
def IsBreakBefore (lineBreak rest : Text) : Prop :=
  lineBreak = ['\r', '\n'] ∨
    ∃ character, lineBreak = [character] ∧ isLineBreak character = true ∧
      ¬(character = '\r' ∧ rest.head? = some '\n')

/--
The first line of a text is blank, up to its line break or to the end of the
text.
-/
def BlankStart (after line : Text) : Prop :=
  ∃ blanks lineBreak rest, line = blanks ++ lineBreak ∧ after = line ++ rest ∧
    (∀ character ∈ blanks, isInlineBlank character = true) ∧
    (lineBreak = [] ∧ rest = [] ∨ IsBreakBefore lineBreak rest)

theorem breakAtStart?_eq_some_iff
    {first : Char}
    {rest lineBreak : Text} :
    breakAtStart? first rest = some lineBreak ↔
      ∃ left,
        first :: rest = lineBreak ++ left ∧ IsBreakBefore lineBreak left := by
  unfold breakAtStart?
  constructor
  · intro found
    split at found
    · rename_i both
      cases found
      rcases List.head?_eq_some_iff.1 both.2 with ⟨left, rfl⟩
      exact ⟨left, by simp [both.1], .inl rfl⟩
    · rename_i notBoth
      split at found
      · rename_i breaks
        cases found
        exact ⟨rest, rfl, .inr ⟨first, rfl, breaks, notBoth⟩⟩
      · cases found
  · rintro ⟨left, parts, rfl | ⟨character, rfl, breaks, notBoth⟩⟩
    · cases parts
      simp
    · rw [List.singleton_append] at parts
      cases parts
      rw [if_neg notBoth, if_pos breaks]

theorem lineAtStart?_eq_some_iff {after line : Text} :
    after.lineAtStart? = some line ↔ BlankStart after line := by
  constructor
  · intro found
    rcases inline_or_split after with
      inline | ⟨blanks, first, rest, rfl, inline, outside⟩
    · rw [lineAtStart?_of_inline inline] at found
      cases found
      exact ⟨after, [], [], by simp, by simp, inline, .inl ⟨rfl, rfl⟩⟩
    · rw [lineAtStart?_of_split inline outside] at found
      rcases Option.map_eq_some_iff.1 found with ⟨lineBreak, isBreak, rfl⟩
      rcases breakAtStart?_eq_some_iff.1 isBreak with ⟨left, parts, broken⟩
      exact ⟨blanks, lineBreak, left, rfl, by rw [parts, List.append_assoc],
        inline, .inr broken⟩
  · rintro ⟨blanks, lineBreak, rest, rfl, rfl, inline, ⟨rfl, rfl⟩ | broken⟩
    · simpa using lineAtStart?_of_inline inline
    · have first : ∃ character others, lineBreak = character :: others ∧
          isLineBreak character = true := by
        rcases broken with rfl | ⟨character, rfl, breaks, -⟩
        · exact ⟨'\r', ['\n'], rfl, by decide⟩
        · exact ⟨character, [], rfl, breaks⟩
      rcases first with ⟨character, others, rfl, breaks⟩
      have isBreak :
          breakAtStart? character (others ++ rest) =
            some (character :: others) :=
        breakAtStart?_eq_some_iff.2 ⟨rest, rfl, broken⟩
      rw [List.append_assoc, List.cons_append,
        lineAtStart?_of_split inline (not_isInlineBlank_of_isLineBreak breaks),
        isBreak, Option.map_some]

theorem isBlank_of_isBreakBefore
    {lineBreak rest : Text}
    (isBreak : IsBreakBefore lineBreak rest) :
    ∀ character ∈ lineBreak, isBlank character = true := by
  rcases isBreak with rfl | ⟨character, rfl, breaks, -⟩
  · simp only [List.mem_cons, List.not_mem_nil, or_false]
    rintro character (rfl | rfl) <;> decide
  · intro other member
    rw [List.mem_singleton.1 member]
    exact isBlank_of_isLineBreak breaks

theorem lineAtStart?_eq_some
    {text line : Text}
    (found : text.lineAtStart? = some line) :
    ∃ rest,
      text = line ++ rest ∧ ∀ character ∈ line, isBlank character = true := by
  rcases lineAtStart?_eq_some_iff.1 found with
    ⟨blanks, lineBreak, rest, rfl, isText, inline, atEnd⟩
  refine ⟨rest, isText, ?_⟩
  intro character member
  rcases List.mem_append.1 member with inBlanks | inBreak
  · exact isBlank_of_isInlineBlank (inline character inBlanks)
  · rcases atEnd with ⟨rfl, -⟩ | isBreak
    · cases inBreak
    · exact isBlank_of_isBreakBefore isBreak character inBreak

/-- The blank line at the start of a body, if it ends in the body. -/
def innerLine? (body : Text) : Option Text :=
  if body.all isInlineBlank then none else body.lineAtStart?

/--
A blank line does not reach past a character that is neither a blank nor a line
break.
-/
theorem lineAtStart?_of_solid
    {blanks rest : Text}
    {first : Char}
    (inline : ∀ character ∈ blanks, isInlineBlank character = true)
    (notInline : isInlineBlank first = false)
    (noBreak : isLineBreak first = false) :
    lineAtStart? (blanks ++ first :: rest) = none := by
  have notReturn : first ≠ '\r' := by
    rintro rfl
    cases noBreak
  rw [lineAtStart?_of_split inline notInline]
  simp [breakAtStart?, noBreak, notReturn]

/--
There is no blank line at the start of a text that starts with a character that
is no blank.
-/
theorem lineAtStart?_of_head
    {text : Text}
    {first : Char}
    (isFirst : text.head? = some first)
    (solid : isBlank first = false) :
    text.lineAtStart? = none := by
  rcases List.head?_eq_some_iff.1 isFirst with ⟨rest, rfl⟩
  have nothing : ∀ character ∈ ([] : Text), isInlineBlank character = true := by
    simp
  exact lineAtStart?_of_solid nothing (not_isInlineBlank_of_not_isBlank solid)
    (not_isLineBreak_of_not_isBlank solid)

/--
A text whose first line is not blank has a character there that is no blank.
-/
theorem split_of_lineAtStart?_eq_none
    {text : Text}
    (inked : text.lineAtStart? = none) :
    ∃ blanks first rest,
      text = blanks ++ first :: rest ∧
      (∀ character ∈ blanks, isInlineBlank character = true) ∧
      isInlineBlank first = false ∧
      isLineBreak first = false := by
  rcases inline_or_split text with
    inline | ⟨blanks, first, rest, rfl, inline, notInline⟩
  · rw [lineAtStart?_of_inline inline] at inked
    cases inked
  · refine ⟨blanks, first, rest, rfl, inline, notInline, ?_⟩
    rw [lineAtStart?_of_split inline notInline, Option.map_eq_none_iff,
      breakAtStart?] at inked
    split at inked
    · cases inked
    · split at inked
      · cases inked
      · rename_i noBreak
        exact Bool.eq_false_iff.2 noBreak

/-- Blanks before a text whose first line is not blank do not make it blank. -/
theorem lineAtStart?_of_inline_append
    {blanks text : Text}
    (inline : ∀ character ∈ blanks, isInlineBlank character = true)
    (inked : text.lineAtStart? = none) :
    (blanks ++ text).lineAtStart? = none := by
  rcases split_of_lineAtStart?_eq_none inked with
    ⟨others, first, rest, rfl, inlineOthers, notInline, noBreak⟩
  have further :
      ∀ character ∈ blanks ++ others, isInlineBlank character = true := by
    intro character member
    rcases List.mem_append.1 member with before | behind
    · exact inline character before
    · exact inlineOthers character behind
  rw [← List.append_assoc]
  exact lineAtStart?_of_solid further notInline noBreak

/-- What stands behind the first line of a text has no part in that line. -/
theorem lineAtStart?_append_eq_none
    {text : Text}
    (inked : text.lineAtStart? = none)
    (after : Text) :
    (text ++ after).lineAtStart? = none := by
  rcases split_of_lineAtStart?_eq_none inked with
    ⟨blanks, first, rest, rfl, inline, notInline, noBreak⟩
  rw [List.append_assoc, List.cons_append]
  exact lineAtStart?_of_solid inline notInline noBreak

/--
Before a text whose first line is not blank, the blank line at the start of a
body is found in the body.
-/
theorem lineAtStart?_append
    {after : Text}
    (inked : after.lineAtStart? = none)
    (body : Text) :
    (body ++ after).lineAtStart? = body.innerLine? := by
  rcases split_of_lineAtStart?_eq_none inked with
    ⟨blanksAfter, next, left, rfl, inlineAfter, notInline, noBreak⟩
  rcases inline_or_split body with
    inline | ⟨blanks, first, rest, rfl, inline, notBlank⟩
  · have all : body.all isInlineBlank = true := by simpa using inline
    rw [innerLine?, if_pos all]
    exact lineAtStart?_of_inline_append inline inked
  · have notAll : ¬(blanks ++ first :: rest).all isInlineBlank = true := by
      simp [notBlank]
    have noFeed : (blanksAfter ++ next :: left).head? ≠ some '\n' := by
      cases blanksAfter with
      | nil =>
        rintro isFeed
        cases isFeed
        cases noBreak
      | cons character blanksAfter =>
        rintro isFeed
        cases isFeed
        cases inlineAfter '\n' List.mem_cons_self
    have sameHead : (rest ++ (blanksAfter ++ next :: left)).head? = some '\n' ↔
        rest.head? = some '\n' := by
      cases rest with
      | nil => simpa using noFeed
      | cons character rest => simp
    rw [innerLine?, if_neg notAll, List.append_assoc, List.cons_append,
      lineAtStart?_of_split inline notBlank,
      lineAtStart?_of_split inline notBlank]
    simp only [breakAtStart?, sameHead]

/--
After a text that ends with no blank, it does not matter what stands further
down.
-/
theorem lineAtStart?_append_of_getLast
    {text : Text}
    {last : Char}
    (isLast : text.getLast? = some last)
    (solid : isBlank last = false)
    (after : Text) :
    (text ++ after).lineAtStart? = text.lineAtStart? := by
  rcases List.getLast?_eq_some_iff.1 isLast with ⟨start, rfl⟩
  have inked (after : Text) : lineAtStart? (last :: after) = none :=
    lineAtStart?_of_head rfl solid
  calc
    lineAtStart? (start ++ [last] ++ after)
    _ = lineAtStart? (start ++ last :: after) := by simp
    _ = innerLine? start := lineAtStart?_append (inked after) start
    _ = lineAtStart? (start ++ [last]) :=
      (lineAtStart?_append (inked []) start).symm

/-! ## Both sides -/

/-- Before a place stands a character on its line that is no blank. -/
def InkBefore (before : Text) : Prop :=
  ∃ start character gap,
    before = start ++ character :: gap ∧
    isBlank character = false ∧
    ∀ other ∈ gap, isLineBreak other = false

/-- After a place stands a character on its line that is no blank. -/
def InkAfter (after : Text) : Prop :=
  ∃ gap character rest,
    after = gap ++ character :: rest ∧
    isBlank character = false ∧
    ∀ other ∈ gap, isLineBreak other = false

theorem isBlank_eq_false
    {character : Char}
    (notInline : isInlineBlank character = false)
    (noBreak : isLineBreak character = false) :
    isBlank character = false := by
  simpa [isInlineBlank, noBreak] using notInline

theorem noBreak_of_inline
    {blanks : Text}
    (inline : ∀ character ∈ blanks, isInlineBlank character = true) :
    ∀ character ∈ blanks, isLineBreak character = false :=
  fun character member =>
    not_isLineBreak_of_isInlineBlank (inline character member)

/--
A line without a break holds a first character that is no inline blank, and so
no blank.
-/
theorem lineAtStart?_eq_none_iff {after : Text} :
    after.lineAtStart? = none ↔ InkAfter after := by
  constructor
  · intro inked
    rcases split_of_lineAtStart?_eq_none inked with
      ⟨gap, character, rest, rfl, inline, notInline, noBreak⟩
    exact ⟨gap, character, rest, rfl, isBlank_eq_false notInline noBreak,
      noBreak_of_inline inline⟩
  · rintro ⟨gap, character, rest, rfl, solid, noBreak⟩
    rcases inline_or_split gap with
      inline | ⟨blanks, first, others, rfl, inline, notInline⟩
    · exact lineAtStart?_of_solid inline
        (not_isInlineBlank_of_not_isBlank solid)
        (not_isLineBreak_of_not_isBlank solid)
    · rw [List.append_assoc, List.cons_append]
      exact lineAtStart?_of_solid inline notInline (noBreak first (by simp))

theorem indentationAtEnd?_eq_none_iff {before : Text} :
    indentationAtEnd? before.reverse = none ↔ InkBefore before := by
  constructor
  · intro inked
    rcases split_of_indentationAtEnd?_eq_none inked with
      ⟨start, character, gap, rfl, inline, notInline, noBreak⟩
    exact ⟨start, character, gap, rfl, isBlank_eq_false notInline noBreak,
      noBreak_of_inline inline⟩
  · rintro ⟨start, character, gap, rfl, solid, noBreak⟩
    have reversed : (start ++ character :: gap).reverse =
        gap.reverse ++ character :: start.reverse := by simp
    rcases inline_or_split gap.reverse with
      inline | ⟨blanks, first, others, split, inline, notInline⟩
    · rw [reversed,
        indentationAtEnd?_of_split inline
          (not_isInlineBlank_of_not_isBlank solid),
        not_isLineBreak_of_not_isBlank solid]
      rfl
    · have inGap : first ∈ gap := List.mem_reverse.1 (by simp [split])
      rw [reversed, split, List.append_assoc, List.cons_append,
        indentationAtEnd?_of_split inline notInline, noBreak first inGap]
      rfl

/--
The indentation before a place and the rest of the line after it, if the line is
blank.
-/
def lineBetween? (before after : Text) : Option (Text × Text) := do
  let indentation ← indentationAtEnd? before.reverse
  let line ← after.lineAtStart?
  pure (indentation, line)

theorem lineBetween?_eq_some
    {before after indentation line : Text}
    (found : lineBetween? before after = some (indentation, line)) :
    indentationAtEnd? before.reverse = some indentation ∧
    after.lineAtStart? = some line := by
  rcases Option.bind_eq_some_iff.1 found with
    ⟨indentation', isIndentation, more⟩
  rcases Option.bind_eq_some_iff.1 more with ⟨line', isLine, same⟩
  cases same
  exact ⟨isIndentation, isLine⟩

theorem lineBetween?_of_some
    {before after indentation line : Text}
    (isIndentation : indentationAtEnd? before.reverse = some indentation)
    (isLine : after.lineAtStart? = some line) :
    lineBetween? before after = some (indentation, line) := by
  simp [lineBetween?, isIndentation, isLine]

theorem lineBetween?_of_none
    {before after : Text}
    (nothing :
      indentationAtEnd? before.reverse = none ∨ after.lineAtStart? = none) :
    lineBetween? before after = none := by
  rcases nothing with none | none
  · simp [lineBetween?, none]
  · cases indentation : indentationAtEnd? before.reverse <;>
      simp [lineBetween?, indentation, none]

/-- A line is blank just if there is no character on it that is no blank. -/
theorem lineBetween?_eq_none_iff {before after : Text} :
    lineBetween? before after = none ↔ InkBefore before ∨ InkAfter after := by
  rw [← indentationAtEnd?_eq_none_iff, ← lineAtStart?_eq_none_iff]
  refine ⟨fun nothing => ?_, lineBetween?_of_none⟩
  cases isIndentation : indentationAtEnd? before.reverse with
  | none => exact .inl rfl
  | some indentation =>
    cases isLine : after.lineAtStart? with
    | none => exact .inr rfl
    | some line =>
      rw [lineBetween?_of_some isIndentation isLine] at nothing
      cases nothing

/-- Between two texts a tag is alone on its line, after an indentation. -/
def AloneBetween (before after indentation : Text) : Prop :=
  BlankEnd before indentation ∧ ∃ line, BlankStart after line

/-- The indentation before a place that is alone on its line. -/
def indentationBetween? (before after : Text) : Option Text :=
  (lineBetween? before after).map Prod.fst

theorem indentationBetween?_eq_some_iff {before after indentation : Text} :
    indentationBetween? before after = some indentation ↔
      AloneBetween before after indentation := by
  constructor
  · intro found
    rcases Option.map_eq_some_iff.1 found with ⟨⟨_, line⟩, around, rfl⟩
    rcases lineBetween?_eq_some around with ⟨isIndentation, isLine⟩
    exact ⟨indentationAtEnd?_eq_some_iff.1 isIndentation,
      line, lineAtStart?_eq_some_iff.1 isLine⟩
  · rintro ⟨blank, line, blankLine⟩
    have around := lineBetween?_of_some (indentationAtEnd?_eq_some_iff.2 blank)
      (lineAtStart?_eq_some_iff.2 blankLine)
    rw [indentationBetween?, around]
    rfl

theorem indentationBetween?_of_some
    {before after indentation line : Text}
    (isIndentation : indentationAtEnd? before.reverse = some indentation)
    (isLine : after.lineAtStart? = some line) :
    indentationBetween? before after = some indentation := by
  rw [indentationBetween?, lineBetween?_of_some isIndentation isLine]
  rfl

theorem indentationBetween?_of_none
    {before after : Text}
    (nothing :
      indentationAtEnd? before.reverse = none ∨ after.lineAtStart? = none) :
    indentationBetween? before after = none := by
  rw [indentationBetween?, lineBetween?_of_none nothing]
  rfl

/-- The indentation of a tag is made of inline blanks, if it has one. -/
theorem isInlineBlank_of_indentationBetween? (before after : Text) :
    ∀ character ∈ (indentationBetween? before after).getD [],
      isInlineBlank character = true := by
  cases found : indentationBetween? before after with
  | none => simp
  | some indentation => exact (indentationBetween?_eq_some_iff.1 found).1.inline

/-- From a line break on, it does not matter what stands further up. -/
theorem aloneBetween_append
    {text : Text}
    (broken : ∃ character ∈ text, isLineBreak character = true)
    (before after indentation : Text) :
    AloneBetween (before ++ text) after indentation ↔
      AloneBetween text after indentation :=
  and_congr_left fun _ => blankEnd_append broken before indentation

/--
From a text whose last line is not blank on, it does not matter what stands
further up.
-/
theorem indentationBetween?_append
    {text : Text}
    (inked : indentationAtEnd? text.reverse = none)
    (before body after : Text) :
    indentationBetween? (before ++ text ++ body) after =
      indentationBetween? (text ++ body) after := by
  simp only [indentationBetween?, lineBetween?, indentationAtEnd?_append inked,
    indentationAtEnd?_append (indentationAtEnd?_append_eq_none inked before)]

/--
The line that goes with a tag: the rest of its line if the tag is alone there,
after the indentation that is given, and otherwise none.
-/
def LineOf (alone : Option Text) (after line : Text) : Prop :=
  match alone with
  | none => line = []
  | some _ => BlankStart after line

theorem LineOf.of_some
    {indentation after line : Text}
    (isLine : after.lineAtStart? = some line) :
    LineOf (some indentation) after line :=
  lineAtStart?_eq_some_iff.1 isLine

theorem LineOf.blank
    {alone : Option Text}
    {after line : Text}
    (isLine : LineOf alone after line) :
    ∀ character ∈ line, isBlank character = true := by
  cases alone with
  | none =>
    have nothing : line = [] := isLine
    simp [nothing]
  | some indentation =>
    rcases lineAtStart?_eq_some (lineAtStart?_eq_some_iff.2 isLine) with
      ⟨rest, -, blank⟩
    exact blank

/-- Either both are there, or one of them is not. -/
theorem both_or_none
    {α β : Type}
    (first : Option α)
    (second : Option β) :
    (∃ answer other, first = some answer ∧ second = some other) ∨
    first = none ∨
    second = none := by
  cases first with
  | none => exact .inr (.inl rfl)
  | some answer =>
    cases second with
    | none => exact .inr (.inr rfl)
    | some other => exact .inl ⟨answer, other, rfl, rfl⟩

theorem innerIndentation?_eq_some
    {body indentation : Text}
    (found : body.innerIndentation? = some indentation) :
    ∃ kept,
      body = kept ++ indentation ∧
      ∀ character ∈ indentation, isInlineBlank character = true := by
  unfold innerIndentation? at found
  split at found
  · cases found
  · exact indentationAtEnd?_eq_some found

theorem innerLine?_eq_some
    {body line : Text}
    (found : body.innerLine? = some line) :
    ∃ rest,
      body = line ++ rest ∧ ∀ character ∈ line, isBlank character = true := by
  unfold innerLine? at found
  split at found
  · cases found
  · exact lineAtStart?_eq_some found

end Mustache.Text
