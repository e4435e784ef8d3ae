import Mustache.Proofs.Text.Line

/-!
# Counting line breaks part by part

The line breaks of two texts add up, unless a carriage return ends the one and a
line feed starts the other (`countLineBreaks_append`).  A count that is told the
character before a text leaves such a line feed out
(`lineBreaksAfter_add_split`).
-/

namespace Mustache.Text

theorem lineBreaksAfter_append
    (previous : Option Char)
    (first second : Text) :
    lineBreaksAfter previous (first ++ second) =
      lineBreaksAfter previous first +
        lineBreaksAfter (first.getLast?.or previous) second := by
  induction first generalizing previous with
  | nil => simp
  | cons character rest ih =>
    have last :
        (character :: rest).getLast?.or previous =
          rest.getLast?.or (some character) := by
      rw [List.getLast?_cons]
      cases rest.getLast? <;> rfl
    rw [List.cons_append, lineBreaksAfter_cons, lineBreaksAfter_cons, ih, last,
      Nat.add_assoc]

/--
A carriage return and a line feed meet where a text ends and another one begins.
-/
def SplitsBreak (before after : Text) : Prop :=
  before.getLast? = some '\r' ∧ after.head? = some '\n'

instance (before after : Text) : Decidable (SplitsBreak before after) :=
  inferInstanceAs (Decidable (_ ∧ _))

/--
Behind a carriage return a line feed at the start of a text is no break of its
own.
-/
theorem lineBreaksAfter_add_split (before text : Text) :
    text.lineBreaksAfter before.getLast? +
        (if SplitsBreak before text then 1 else 0) =
      text.countLineBreaks := by
  cases text with
  | nil => simp [SplitsBreak, countLineBreaks_eq]
  | cons character rest =>
    simp only [countLineBreaks_eq, lineBreaksAfter_cons, SplitsBreak,
      List.head?_cons, Option.some.injEq, opensLine]
    by_cases isFeed : character = '\n'
    · by_cases isReturn : before.getLast? = some '\r'
      · simp [isFeed, isReturn, Nat.add_comm]
      · simp [isFeed, isReturn]
    · simp [isFeed]

/-- The breaks of two texts add up, unless one of them lies across the edge. -/
theorem countLineBreaks_append
    {first second : Text}
    (whole : ¬SplitsBreak first second) :
    (first ++ second).countLineBreaks =
      first.countLineBreaks + second.countLineBreaks := by
  have behind := lineBreaksAfter_add_split first second
  rw [if_neg whole, Nat.add_zero] at behind
  rw [countLineBreaks_eq, lineBreaksAfter_append, Option.or_none, behind,
    countLineBreaks_eq first]

/--
Whether a break is split at the start of a text is seen from its first
characters.
-/
theorem splitsBreak_append
    {first : Text}
    (nonempty : first ≠ [])
    (before rest : Text) :
    SplitsBreak before (first ++ rest) ↔ SplitsBreak before first := by
  rcases List.exists_cons_of_ne_nil nonempty with ⟨character, others, rfl⟩
  rfl

theorem SplitsBreak.of_prefix
    {before first : Text}
    (splits : SplitsBreak before first)
    (rest : Text) :
    SplitsBreak before (first ++ rest) := by
  have nonempty : first ≠ [] := by
    rintro rfl
    cases splits.2
  exact (splitsBreak_append nonempty before rest).2 splits

theorem not_splitsBreak_of_last
    {text : Text}
    {last : Char}
    (isLast : text.getLast? = some last)
    (solid : isBlank last = false)
    (before after : Text) :
    ¬SplitsBreak (before ++ text) after := by
  rintro ⟨isReturn, -⟩
  rw [List.getLast?_append, isLast] at isReturn
  cases isReturn
  cases solid

/-- A blank line ends with a whole line break, or with the text. -/
theorem not_splitsBreak_of_line
    {line rest : Text}
    (isLine : (line ++ rest).lineAtStart? = some line) :
    ¬SplitsBreak line rest := by
  rcases lineAtStart?_eq_some_iff.1 isLine with
    ⟨blanks, lineBreak, rest', rfl, split, -, ends⟩
  cases List.append_cancel_left split
  rintro ⟨isReturn, isFeed⟩
  rcases ends with ⟨-, rfl⟩ | rfl | ⟨character, rfl, -, single⟩
  · cases isFeed
  · simp at isReturn
  · rw [List.getLast?_concat] at isReturn
    cases isReturn
    exact single ⟨rfl, isFeed⟩

end Mustache.Text
