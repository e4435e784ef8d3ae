import Mustache.Proofs.Draft.Progress

/-!
# Drafts with the same line

What a block does to a draft depends on the draft only through the line around
the tags of the block: the indentation at the end of what was written, and the
blank line at the start of what is unread.  Two drafts with the same line lose
the same indentation and the same line (`Draft.SameLine.cutAlike`), and the same
text stands for the block in both (`Draft.SameLine.blockText_eq`).

So a draft may have more text before what was written and behind what is unread.
A block does to the longer draft what it does to the shorter one, as long as the
indentation before its tags does not reach into the text before, nor the rest of
the line into the text behind (`Draft.Extends`).
-/

namespace Mustache

open RenderM

namespace Draft

/-- The line around a place is the same in two drafts. -/
structure SameLine (draft draft' : Draft) : Prop where
  indentation_eq : Text.indentationAtEnd? draft'.written.reverse =
    Text.indentationAtEnd? draft.written.reverse
  line_eq : draft'.unread.lineAtStart? = draft.unread.lineAtStart?

/-- The same indentation and the same blank line are cut off two drafts. -/
def CutAlike (draft draft' trimmed trimmed' : Draft) : Prop :=
  ∃ indentation line,
    draft.Cuts trimmed indentation line ∧
    draft'.Cuts trimmed' indentation line ∧
    (∀ character ∈ indentation.getD [], Text.isInlineBlank character = true) ∧
    ∀ character ∈ line, Text.isBlank character = true

theorem Cuts.trans
    {draft trimmed final : Draft}
    {indentation further : Option Text}
    {line more : Text}
    (first : draft.Cuts trimmed indentation line)
    (second : trimmed.Cuts final further more) :
    draft.Cuts final (some (further.getD [] ++ indentation.getD []))
      (line ++ more) where
  written_eq := by
    rw [first.written_eq, second.written_eq, List.append_assoc]
    rfl
  unread_eq := by rw [first.unread_eq, second.unread_eq, List.append_assoc]

namespace CutAlike

variable
    {draft draft' trimmed trimmed' final final' : Draft}
    {indentation line : Text}

theorem refl (draft draft' : Draft) : CutAlike draft draft' draft draft' :=
  ⟨none, [], ⟨(List.append_nil _).symm, rfl⟩, ⟨(List.append_nil _).symm, rfl⟩,
    by simp, by simp⟩

theorem trans
    (first : CutAlike draft draft' trimmed trimmed')
    (second : CutAlike trimmed trimmed' final final') :
    CutAlike draft draft' final final' := by
  rcases first with ⟨indentation, line, cuts, cuts', inline, blank⟩
  rcases second with ⟨further, more, cutsMore, cutsMore', inlineMore, blankMore⟩
  refine ⟨_, _, cuts.trans cutsMore, cuts'.trans cutsMore', ?_, ?_⟩
  · exact List.forall_mem_append.2 ⟨inlineMore, inline⟩
  · exact List.forall_mem_append.2 ⟨blank, blankMore⟩

theorem dropIndentation
    (isIndentation :
      Text.indentationAtEnd? draft.written.reverse = some indentation)
    (isIndentation' :
      Text.indentationAtEnd? draft'.written.reverse = some indentation) :
    CutAlike draft draft' (draft.dropIndentation indentation)
      (draft'.dropIndentation indentation) := by
  rcases Text.indentationAtEnd?_eq_some isIndentation with ⟨_, -, inline⟩
  exact ⟨_, _, cuts_dropIndentation isIndentation,
    cuts_dropIndentation isIndentation', inline, by simp⟩

theorem dropLine
    (isLine : draft.unread.lineAtStart? = some line)
    (isLine' : draft'.unread.lineAtStart? = some line) :
    CutAlike draft draft' (draft.dropLine line) (draft'.dropLine line) := by
  rcases Text.lineAtStart?_eq_some isLine with ⟨_, -, blank⟩
  exact ⟨_, _, cuts_dropLine isLine, cuts_dropLine isLine', by simp, blank⟩

end CutAlike

namespace SameLine

variable {draft draft' : Draft}

theorem trimLine (same : SameLine draft draft') :
    draft'.trimLine.1 = draft.trimLine.1 ∧
    CutAlike draft draft' draft.trimLine.2 draft'.trimLine.2 := by
  have alike : Text.lineBetween? draft'.written draft'.unread =
      Text.lineBetween? draft.written draft.unread := by
    simp only [Text.lineBetween?, same.indentation_eq, same.line_eq]
  simp only [Draft.trimLine, alike]
  split
  · rename_i alone
    rcases Text.lineBetween?_eq_some alone with ⟨isIndentation, isLine⟩
    refine ⟨rfl, ?_⟩
    exact
      (CutAlike.dropIndentation isIndentation
        (same.indentation_eq.trans isIndentation)).trans
      (.dropLine isLine (same.line_eq.trans isLine))
  · exact ⟨rfl, .refl _ _⟩

theorem trimCloser
    (same : SameLine draft draft')
    (body : Text) :
    (draft'.trimCloser body).1 = (draft.trimCloser body).1 ∧
    CutAlike draft draft' (draft.trimCloser body).2
      (draft'.trimCloser body).2 := by
  simp only [Draft.trimCloser, same.line_eq]
  split
  · rename_i isLine
    exact ⟨rfl, .dropLine isLine (same.line_eq.trans isLine)⟩
  · exact ⟨rfl, .refl _ _⟩

theorem trimOpener
    (same :
      Text.indentationAtEnd? draft'.written.reverse =
        Text.indentationAtEnd? draft.written.reverse)
    (body : Text) :
    (draft'.trimOpener body).1 = (draft.trimOpener body).1 ∧
    (draft'.trimOpener body).2.1 = (draft.trimOpener body).2.1 ∧
    CutAlike draft draft' (draft.trimOpener body).2.2
      (draft'.trimOpener body).2.2 := by
  simp only [Draft.trimOpener, same]
  split
  · rename_i isIndentation isLine
    exact ⟨rfl, rfl, .dropIndentation isIndentation (same.trans isIndentation)⟩
  · exact ⟨rfl, rfl, .refl _ _⟩

theorem trimTags
    (same : SameLine draft draft')
    (body : Text) :
    (draft'.trimTags body).1 = (draft.trimTags body).1 ∧
    (draft'.trimTags body).2.1 = (draft.trimTags body).2.1 ∧
    CutAlike draft draft' (draft.trimTags body).2.2
      (draft'.trimTags body).2.2 := by
  rcases same.trimCloser body with ⟨sameBody, closed⟩
  have kept (draft : Draft) :
      (draft.trimCloser body).2.written = draft.written := by
    unfold Draft.trimCloser
    split <;> rfl
  have indented :
      Text.indentationAtEnd? (draft'.trimCloser body).2.written.reverse =
        Text.indentationAtEnd? (draft.trimCloser body).2.written.reverse := by
    rw [kept, kept, same.indentation_eq]
  have opened := trimOpener indented (draft.trimCloser body).1
  simp only [Draft.trimTags, sameBody]
  exact ⟨opened.1, opened.2.1, closed.trans opened.2.2⟩

/-! ## Blocks -/

theorem cutAlike
    (same : SameLine draft draft')
    (block : Block) :
    CutAlike draft draft' (draft.trimAround block)
      (draft'.trimAround block) := by
  cases block with
  | leaf piece =>
    cases takes : piece.kind.takesLine with
    | true =>
      rw [trimAround_of_takesLine takes, trimAround_of_takesLine takes]
      exact same.trimLine.2
    | false =>
      rw [trimAround_of_not_takesLine takes, trimAround_of_not_takesLine takes]
      exact .refl _ _
  | paired opener body closer => exact (same.trimTags body).2.2

/-- What stands for a block is the same in both drafts. -/
theorem blockText_eq
    (same : SameLine draft draft')
    (lambdas : Lambdas)
    (render : TemplateRenderer)
    (partials : Partials)
    (delimiters : Delimiters)
    (block : Block) :
    draft'.blockText lambdas render partials delimiters block =
      draft.blockText lambdas render partials delimiters block := by
  cases block with
  | leaf piece => simp only [blockText, same.trimLine.1]
  | paired opener body closer =>
    rcases same.trimTags body with ⟨alone, sameBody, -⟩
    simp only [blockText, alone, sameBody]

end SameLine

/-! ## A draft within a longer one -/

/-- A draft with some text more on either side. -/
structure Extends (before after : Text) (draft whole : Draft) : Prop where
  written_eq : whole.written = before ++ draft.written
  unread_eq : whole.unread = draft.unread ++ after

namespace Extends

variable {before after : Text} {draft whole : Draft}

theorem write
    (ext : Extends before after draft whole)
    (text : Text) :
    Extends before after (draft.write text) (whole.write text) where
  written_eq := by simp only [Draft.write, ext.written_eq, List.append_assoc]
  unread_eq := ext.unread_eq

theorem pass
    (ext : Extends before after draft whole)
    (skipped source rest : Text) :
    Extends before after (draft.pass skipped source rest)
      (whole.pass skipped source (rest ++ after)) where
  written_eq := by simp only [Draft.pass, ext.written_eq, List.append_assoc]
  unread_eq := rfl

theorem trimAround
    (ext : Extends before after draft whole)
    (same : SameLine draft whole)
    (block : Block) :
    Extends before after (draft.trimAround block) (whole.trimAround block) := by
  rcases same.cutAlike block with ⟨indentation, line, cuts, cuts', -, -⟩
  constructor
  · rw [← List.append_left_inj (indentation.getD []), ← cuts'.written_eq,
      ext.written_eq, cuts.written_eq, List.append_assoc]
  · rw [← List.append_right_inj line, ← cuts'.unread_eq, ext.unread_eq,
      cuts.unread_eq, List.append_assoc]

end Extends

end Draft

end Mustache
