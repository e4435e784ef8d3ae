import Mathlib.Data.List.TakeWhile
import Mustache.Proofs.Text.Line
import Mustache.Text.Line

/-!
# What an indentation does to words and blanks

An indentation goes behind line breaks.  A text without them stays as it is, the
blanks around a text become other blanks, and a pattern without blanks starts at
a place after indenting exactly when it did before.  So what is left of a text
when it is trimmed is indented, and nothing else happens to it
(`trim_of_indentFrom`).
-/

namespace Mustache.Text

variable {indentation : Text}

theorem endsLine_of_inline
    {character : Char}
    (inline : isLineBreak character = false)
    (rest : Text) :
    endsLine character rest = false := by
  rcases Bool.or_eq_false_iff.1 inline with ⟨notFeed, notReturn⟩
  rw [endsLine, notFeed, notReturn]
  rfl

theorem endsLine_of_solid
    {character : Char}
    (solid : isBlank character = false)
    (rest : Text) :
    endsLine character rest = false :=
  endsLine_of_inline (not_isLineBreak_of_not_isBlank solid) rest

theorem indentFrom_of_inline
    {text : Text}
    (inline : ∀ character ∈ text, isLineBreak character = false) :
    indentFrom indentation false text = text := by
  induction text with
  | nil => rfl
  | cons character rest ih =>
    have ends := endsLine_of_inline (inline character List.mem_cons_self) rest
    have others :=
      ih fun other member => inline other (List.mem_cons_of_mem _ member)
    simp only [indentFrom, Bool.false_and, ends, others]
    rfl

theorem indentFrom_of_solid
    {text : Text}
    (solid : ∀ character ∈ text, isBlank character = false) :
    indentFrom indentation false text = text :=
  indentFrom_of_inline fun character member =>
    not_isLineBreak_of_not_isBlank (solid character member)

theorem indentFrom_append_of_ne_nil
    {first : Text}
    (nonempty : first ≠ [])
    {last : Char}
    (isLast : first.getLast? = some last)
    (solid : isBlank last = false)
    (lineStart : Bool)
    (second : Text) :
    indentFrom indentation lineStart (first ++ second) =
      indentFrom indentation lineStart first ++
        indentFrom indentation false second := by
  induction first generalizing lineStart with
  | nil => cases isLast
  | cons character first ih =>
    cases first with
    | nil =>
      have same : character = last := by simpa using isLast
      rw [← same] at solid
      simp [indentFrom, endsLine_of_solid solid]
    | cons next first =>
      rw [List.getLast?_cons_cons] at isLast
      have further :=
        ih (List.cons_ne_nil next first) isLast
          (endsLine character (next :: first))
      have alike : endsLine character (next :: first ++ second) =
          endsLine character (next :: first) := rfl
      rw [List.cons_append, indentFrom, alike, further]
      simp [indentFrom]

theorem indentFrom_append
    {first : Text}
    (ends : ∀ last, first.getLast? = some last → isBlank last = false)
    (second : Text) :
    indentFrom indentation false (first ++ second) =
      indentFrom indentation false first ++
        indentFrom indentation false second := by
  cases isLast : first.getLast? with
  | none =>
    rw [List.getLast?_eq_none_iff.1 isLast]
    rfl
  | some last =>
    have nonempty : first ≠ [] := by
      rintro rfl
      cases isLast
    exact indentFrom_append_of_ne_nil nonempty isLast (ends last isLast) false
      second

theorem indentFrom_solid_append
    {first : Text}
    (solid : ∀ character ∈ first, isBlank character = false)
    (second : Text) :
    indentFrom indentation false (first ++ second) =
      first ++ indentFrom indentation false second := by
  rw [indentFrom_append fun last isLast =>
      solid last (List.mem_of_getLast? isLast), indentFrom_of_solid solid]

/--
A pattern without blanks starts in an indented text where it starts in the text.
-/
theorem starts_indentFrom
    {pattern : Text}
    (solid : ∀ character ∈ pattern, isBlank character = false)
    (text : Text) :
    pattern <+: indentFrom indentation false text ↔ pattern <+: text := by
  induction pattern generalizing text with
  | nil => simp
  | cons first pattern ih =>
    cases text with
    | nil => rfl
    | cons character rest =>
      have head :
          indentFrom indentation false (character :: rest) =
            character ::
              indentFrom indentation (endsLine character rest) rest :=
        rfl
      rw [head, List.cons_prefix_cons, List.cons_prefix_cons]
      apply and_congr_right
      rintro rfl
      rw [endsLine_of_solid (solid first List.mem_cons_self)]
      exact ih (fun other member => solid other (List.mem_cons_of_mem _ member))
        rest

/--
Before a character that is no blank, an indentation is the only difference.
-/
theorem indentFrom_of_head_solid
    {text : Text}
    (starts : ∀ first, text.head? = some first → isBlank first = false)
    (nonempty : text ≠ [])
    (lineStart : Bool) :
    indentFrom indentation lineStart text =
      (if lineStart then indentation else []) ++
        indentFrom indentation false text := by
  cases text with
  | nil => exact absurd rfl nonempty
  | cons first rest =>
    have inline := not_isLineBreak_of_not_isBlank (starts first rfl)
    cases lineStart <;> simp [indentFrom, inline]

theorem getLast?_indentFrom
    (lineStart : Bool)
    (text : Text) :
    (indentFrom indentation lineStart text).getLast? = text.getLast? := by
  induction text generalizing lineStart with
  | nil => rfl
  | cons character rest ih =>
    rw [indentFrom, List.getLast?_append, List.getLast?_cons, ih,
      List.getLast?_cons]
    rfl

theorem head?_indentFrom (indentation text : Text) :
    (indentFrom indentation false text).head? = text.head? := by
  cases text <;> rfl

theorem length_le_indentFrom
    (indentation : Text)
    (lineStart : Bool)
    (text : Text) :
    text.length ≤ (indentFrom indentation lineStart text).length := by
  induction text generalizing lineStart with
  | nil => exact Nat.le_refl _
  | cons character rest ih =>
    have further := ih (endsLine character rest)
    simp only [indentFrom, List.length_append, List.length_cons]
    omega

/-- An indentation that breaks no line puts no line break at the start. -/
theorem head?_indentFrom_eq_break
    (inline : ∀ character ∈ indentation, isLineBreak character = false)
    {lineBreak : Char}
    (breaks : isLineBreak lineBreak = true)
    (lineStart : Bool)
    (text : Text) :
    (indentFrom indentation lineStart text).head? = some lineBreak ↔
      text.head? = some lineBreak := by
  cases text with
  | nil => rfl
  | cons character rest =>
    by_cases added : (lineStart && !isLineBreak character) = true
    · have solid : isLineBreak character = false := by
        simpa using (Bool.and_eq_true_iff.1 added).2
      have notHere :
          ∀ other, isLineBreak other = false → some other ≠ some lineBreak := by
        rintro _ isInline ⟨⟩
        rw [breaks] at isInline
        cases isInline
      rw [indentFrom, if_pos added]
      cases indentation with
      | nil => rfl
      | cons first others =>
        exact iff_of_false (notHere first (inline first List.mem_cons_self))
          (notHere character solid)
    · rw [indentFrom, if_neg added]
      rfl

/-- Whether a line ends depends on the next character only. -/
theorem endsLine_congr
    (character : Char)
    {first second : Text}
    (same : first.head? = second.head?) :
    endsLine character first = endsLine character second := by
  unfold endsLine
  rw [same]

/-- An indentation that breaks no line can be told from the text. -/
theorem indentFrom_injective
    (inline : ∀ character ∈ indentation, isLineBreak character = false)
    {first second : Text}
    (lineStart : Bool)
    (same :
      indentFrom indentation lineStart first =
        indentFrom indentation lineStart second) :
    first = second := by
  induction first generalizing lineStart second with
  | nil =>
    cases second with
    | nil => rfl
    | cons => simp [indentFrom] at same
  | cons character rest ih =>
    cases second with
    | nil => simp [indentFrom] at same
    | cons other others =>
      have alike {here there : Text} {lineBreak : Char}
          (breaks : isLineBreak lineBreak = true)
          (same :
            indentFrom indentation lineStart here =
              indentFrom indentation lineStart there)
          (isHead : here.head? = some lineBreak) :
          there.head? = some lineBreak := by
        rwa [← head?_indentFrom_eq_break inline breaks lineStart, ← same,
          head?_indentFrom_eq_break inline breaks]
      have sameBreaks : isLineBreak character = isLineBreak other := by
        rw [Bool.eq_iff_iff]
        constructor
        · intro breaks
          cases alike breaks same rfl
          exact breaks
        · intro breaks
          cases alike breaks same.symm rfl
          exact breaks
      rw [indentFrom, indentFrom, sameBreaks, List.append_cancel_left_eq,
        List.cons.injEq] at same
      rcases same with ⟨rfl, further⟩
      have sameEnd : endsLine character rest = endsLine character others := by
        have feed : rest.head? = some '\n' ↔ others.head? = some '\n' := by
          rw [← head?_indentFrom_eq_break inline rfl (endsLine character rest),
            further, head?_indentFrom_eq_break inline rfl]
        have unlike :
            (rest.head? != some '\n') = (others.head? != some '\n') := by
          rw [Bool.eq_iff_iff, bne_iff_ne, bne_iff_ne, ne_eq, feed]
        rw [endsLine, endsLine, unlike]
      rw [sameEnd] at further
      rw [ih (endsLine character others) further]

/-! ## Blanks around a text -/

section

variable
    (blankIndentation : ∀ character ∈ indentation, isBlank character = true)

include blankIndentation

/-- Indented blanks are blanks. -/
theorem indentFrom_blanks
    {blanks text : Text}
    (blank : ∀ character ∈ blanks, isBlank character = true)
    (starts : ∀ first, text.head? = some first → isBlank first = false)
    (nonempty : text ≠ [])
    (lineStart : Bool) :
    ∃ blanks',
      (∀ character ∈ blanks', isBlank character = true) ∧
      indentFrom indentation lineStart (blanks ++ text) =
        blanks' ++ indentFrom indentation false text := by
  have added (holds : Bool) :
      ∀ character ∈ if holds then indentation else [],
        isBlank character = true := by
    cases holds with
    | true => exact blankIndentation
    | false => simp
  induction blanks generalizing lineStart with
  | nil =>
    exact ⟨_, added lineStart,
      indentFrom_of_head_solid starts nonempty lineStart⟩
  | cons character blanks ih =>
    rcases ih (fun other member => blank other (List.mem_cons_of_mem _ member))
      (endsLine character (blanks ++ text)) with ⟨others, othersBlank, isOthers⟩
    refine ⟨(if lineStart && !isLineBreak character then indentation else []) ++
      character :: others, ?_, ?_⟩
    · intro other member
      rcases List.mem_append.1 member with within | within
      · exact added _ other within
      · rcases List.mem_cons.1 within with rfl | within
        · exact blank other List.mem_cons_self
        · exact othersBlank other within
    · rw [List.cons_append, indentFrom, isOthers]
      simp

end

/--
A text is what is left of it when it is trimmed, with blanks before and behind.
-/
theorem trim_split (text : Text) :
    ∃ lead trail,
      text = lead ++ (text.trim ++ trail) ∧
      (∀ character ∈ lead, isBlank character = true) ∧
      (∀ character ∈ trail, isBlank character = true) ∧
      (∀ first,
        (text.trim ++ trail).head? = some first → isBlank first = false) ∧
      ∀ last, text.trim.getLast? = some last → isBlank last = false := by
  have rest :
      text.trim ++
          ((text.dropWhile isBlank).reverse.takeWhile isBlank).reverse =
        text.dropWhile isBlank := by
    rw [trim, ← List.reverse_append, List.takeWhile_append_dropWhile,
      List.reverse_reverse]
  refine ⟨text.takeWhile isBlank,
    ((text.dropWhile isBlank).reverse.takeWhile isBlank).reverse, ?_, ?_, ?_,
    ?_, ?_⟩
  · rw [rest, List.takeWhile_append_dropWhile]
  · exact fun character member => List.mem_takeWhile_imp member
  · exact fun character member =>
      List.mem_takeWhile_imp (List.mem_reverse.1 member)
  · rw [rest]
    intro first isFirst
    have solid := List.head?_dropWhile_not isBlank text
    rw [isFirst] at solid
    exact solid
  · intro last isLast
    rw [trim, List.getLast?_reverse] at isLast
    have solid :=
      List.head?_dropWhile_not isBlank (text.dropWhile isBlank).reverse
    rw [isLast] at solid
    exact solid

theorem trim_of_split
    {lead core trail : Text}
    (blankLead : ∀ character ∈ lead, isBlank character = true)
    (blankTrail : ∀ character ∈ trail, isBlank character = true)
    (starts : ∀ first, core.head? = some first → isBlank first = false)
    (ends : ∀ last, core.getLast? = some last → isBlank last = false) :
    (lead ++ (core ++ trail)).trim = core := by
  have unled :
      (lead ++ (core ++ trail)).dropWhile isBlank =
        (core ++ trail).dropWhile isBlank :=
    List.dropWhile_append_of_pos blankLead
  cases core with
  | nil =>
    rw [trim, unled, List.nil_append, List.dropWhile_eq_nil_iff.2 blankTrail]
    rfl
  | cons first core =>
    have kept :
        (first :: core ++ trail).dropWhile isBlank =
          first :: core ++ trail := by
      rw [List.cons_append, List.dropWhile_cons_of_neg]
      simp [starts first rfl]
    have untrailed :
        (trail.reverse ++ (first :: core).reverse).dropWhile isBlank =
          (first :: core).reverse.dropWhile isBlank :=
      List.dropWhile_append_of_pos fun character member =>
        blankTrail character (List.mem_reverse.1 member)
    have keptAgain :
        (first :: core).reverse.dropWhile isBlank =
          (first :: core).reverse := by
      cases backwards : (first :: core).reverse with
      | nil => rfl
      | cons last others =>
        have isLast : (first :: core).getLast? = some last := by
          rw [← List.head?_reverse, backwards]
          rfl
        rw [List.dropWhile_cons_of_neg]
        simp [ends last isLast]
    rw [trim, unled, kept, List.reverse_append, untrailed, keptAgain,
      List.reverse_reverse]

/--
What is left of a text when it is trimmed is indented with the text, whatever
the blanks around it become.  The closing delimiter behind the text marks where
it ends.
-/
theorem trim_of_indentFrom
    (blankIndentation : ∀ character ∈ indentation, isBlank character = true)
    {text text' closing : Text}
    (nonempty : closing ≠ [])
    (solid : ∀ character ∈ closing, isBlank character = false)
    {lineStart : Bool}
    (same :
      indentFrom indentation lineStart (text ++ closing) = text' ++ closing) :
    text'.trim = indentFrom indentation false text.trim := by
  rcases trim_split text with
    ⟨lead, trail, split, blankLead, blankTrail, starts, ends⟩
  have closes : ∀ first, closing.head? = some first → isBlank first = false :=
    fun first isFirst =>
    solid first (List.mem_of_head? isFirst)
  have startsBefore :
      ∀ first,
        (text.trim ++ trail ++ closing).head? = some first →
        isBlank first = false := by
    intro first isFirst
    rw [List.head?_append] at isFirst
    cases before : (text.trim ++ trail).head? with
    | none =>
      rw [before] at isFirst
      exact closes first isFirst
    | some other =>
      rw [before] at isFirst
      cases isFirst
      exact starts first before
  rcases indentFrom_blanks blankIndentation blankLead startsBefore
      (by simp [nonempty]) lineStart with ⟨lead', blankLead', isLead⟩
  rcases indentFrom_blanks blankIndentation blankTrail closes nonempty
      false with ⟨trail', blankTrail', isTrail⟩
  have whole : text ++ closing = lead ++ (text.trim ++ trail ++ closing) := by
    simpa only [List.append_assoc] using congrArg (· ++ closing) split
  have all :
      text' ++ closing =
        lead' ++ (indentFrom indentation false text.trim ++ trail') ++
          closing := by
    calc text' ++ closing
      _ =
        indentFrom indentation lineStart
          (lead ++ (text.trim ++ trail ++ closing)) := by
          rw [← same, whole]
      _ =
        lead' ++
          indentFrom indentation false (text.trim ++ (trail ++ closing)) := by
          rw [isLead, List.append_assoc]
      _ =
        lead' ++
          (indentFrom indentation false text.trim ++ (trail' ++ closing)) := by
          rw [indentFrom_append ends, isTrail, indentFrom_of_solid solid]
      _ = _ := by simp only [List.append_assoc]
  rw [List.append_cancel_right all]
  apply trim_of_split blankLead' blankTrail'
  · intro first isFirst
    cases core : text.trim with
    | nil =>
      rw [core] at isFirst
      cases isFirst
    | cons head rest =>
      rw [core] at isFirst starts
      cases isFirst
      exact starts _ rfl
  · intro last isLast
    rw [getLast?_indentFrom] at isLast
    exact ends last isLast

end Mustache.Text
