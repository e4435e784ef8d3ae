import Mustache.Proofs.Text.Line
import Mustache.Render.Tag
import Mustache.Text.Line

/-!
# Texts without markup

Angle brackets and quotes are markup.  An escaped text holds none of them, and a
text without markup stays without it when it is cut, put together with others of
its kind, indented by blanks or guarded by equals signs.
-/

namespace Mustache

namespace Text

/-- Angle brackets and quotes. -/
def isMarkup (character : Char) : Bool :=
  character == '<' || character == '>' || character == '"' || character == '\''

/-- A text in which no character is markup. -/
def Unmarked (text : Text) : Prop :=
  ∀ character ∈ text, isMarkup character = false

instance (text : Text) : Decidable text.Unmarked :=
  List.decidableBAll _ _

@[simp]
theorem unmarked_nil : Unmarked [] := by
  simp [Unmarked]

@[simp]
theorem unmarked_append {first second : Text} :
    Unmarked (first ++ second) ↔ first.Unmarked ∧ second.Unmarked :=
  List.forall_mem_append

theorem Unmarked.flatten
    {texts : List Text}
    (unmarked : ∀ text ∈ texts, text.Unmarked) :
    Unmarked texts.flatten := by
  intro character member
  rcases List.mem_flatten.1 member with ⟨text, within, inside⟩
  exact unmarked text within character inside

theorem unmarked_escapeCharacter (character : Char) :
    (escapeCharacter character).Unmarked := by
  unfold escapeCharacter
  split
  iterate 5 decide
  · rename_i notAmpersand notOpening notClosing notDouble notSingle
    intro other member
    rw [List.mem_singleton.1 member]
    apply Bool.eq_false_iff.2
    intro isMark
    simp only [isMarkup, Bool.or_eq_true, beq_iff_eq] at isMark
    rcases isMark with ((opens | closes) | isDouble) | isSingle
    · exact notOpening opens
    · exact notClosing closes
    · exact notDouble isDouble
    · exact notSingle isSingle

theorem unmarked_escapeMarkup (text : Text) : text.escapeMarkup.Unmarked := by
  intro character member
  rcases List.mem_flatMap.1 member with ⟨source, -, inside⟩
  exact unmarked_escapeCharacter source character inside

/-- No blank is markup. -/
theorem unmarked_of_blank
    {blanks : Text}
    (blank : ∀ character ∈ blanks, isBlank character = true) :
    blanks.Unmarked := by
  intro character member
  have isBlank := blank character member
  apply Bool.eq_false_iff.2
  intro isMark
  simp only [isMarkup, Bool.or_eq_true, beq_iff_eq] at isMark
  rcases isMark with ((rfl | rfl) | rfl) | rfl <;>
    exact absurd isBlank (by decide)

theorem Unmarked.indentFrom
    {text indentation : Text}
    (unmarked : text.Unmarked)
    (blank : ∀ character ∈ indentation, isBlank character = true)
    (lineStart : Bool) :
    (indentFrom indentation lineStart text).Unmarked := by
  induction text generalizing lineStart with
  | nil => exact unmarked_nil
  | cons character rest ih =>
    rcases List.forall_mem_cons.1 unmarked with ⟨first, others⟩
    rw [Text.indentFrom, unmarked_append]
    constructor
    · split
      · exact unmarked_of_blank blank
      · exact unmarked_nil
    · exact List.forall_mem_cons.2 ⟨first, ih others _⟩

end Text

open Text

theorem unmarked_guarded
    {body : Text}
    (unmarked : body.Unmarked)
    (startsLine : Bool) :
    (guarded body startsLine).Unmarked := by
  have sign : Unmarked ['='] := by decide
  have ended : Unmarked (body ++ ['=']) := unmarked_append.2 ⟨unmarked, sign⟩
  cases startsLine with
  | true => exact ended
  | false =>
    have started : Unmarked (['='] ++ (body ++ ['='])) :=
      unmarked_append.2 ⟨sign, ended⟩
    exact started

theorem unguarded_subset
    (text : Text)
    (startsLine : Bool) :
    ∀ character ∈ unguarded text startsLine, character ∈ text := by
  have leading : ∀ character ∈ dropLeadingGuard text, character ∈ text := by
    unfold dropLeadingGuard
    split
    · exact fun character => List.mem_cons_of_mem _
    · exact fun _ => id
  have trailing (text : Text) :
      ∀ character ∈ dropTrailingGuard text, character ∈ text := by
    unfold dropTrailingGuard
    split
    · rename_i rest isReversed
      intro character member
      rw [← List.mem_reverse, isReversed]
      exact List.mem_cons_of_mem _ (List.mem_reverse.1 member)
    · exact fun _ => id
  intro character member
  cases startsLine with
  | true => exact trailing _ character member
  | false => exact leading character (trailing _ character member)

theorem unmarked_unguarded
    {text : Text}
    (unmarked : text.Unmarked)
    (startsLine : Bool) :
    (unguarded text startsLine).Unmarked :=
  fun character member =>
    unmarked character (unguarded_subset text startsLine character member)

end Mustache
