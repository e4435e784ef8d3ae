import Mustache.Proofs.Render.Machine
import Mustache.Proofs.Scan.Node
import Mustache.Proofs.Text.Line
import Mustache.Text.Line

/-!
# Rendering with two texts

A draft is what was written so far and what is still unread.  There are no marks
and there is no cursor: a block is taken off the unread text, and what it stands
for is put at the end of the written text.  The line around a tag that is alone
on it is cut off the end of the one and the start of the other.

The body of a section lies between its two tags.  The line of the close tag goes
first, with the indentation before it in the body; then that of the opener, with
the rest of its line in what is left of the body.
-/

namespace Mustache

/--
What was written so far, what is still unread, and the line that place is on.
-/
structure Draft where
  written : Text
  unread : Text
  line : Nat
deriving DecidableEq, Repr

open RenderM

namespace Draft

/-- A draft before anything was read. -/
def ofText (text : Text) : Draft :=
  ⟨[], text, 1⟩

/-- Read up to the end of a block, and leave the block itself out. -/
def pass (draft : Draft) (skipped source rest : Text) : Draft :=
  ⟨draft.written ++ skipped, rest,
    draft.line + (skipped ++ source).lineBreaksAfter draft.written.getLast?⟩

/-- Put a text at the end. -/
def write (draft : Draft) (text : Text) : Draft :=
  { draft with written := draft.written ++ text }

/-- Cut an indentation off the end of the written text. -/
def dropIndentation (draft : Draft) (indentation : Text) : Draft :=
  { draft with
    written := draft.written.take (draft.written.length - indentation.length) }

/--
Cut a blank line off the start of the unread text, and count it as passed.
-/
def dropLine (draft : Draft) (line : Text) : Draft :=
  { draft with
    unread := draft.unread.drop line.length
    line := draft.line + line.countLineBreaks }

theorem dropIndentation_eq
    {draft : Draft}
    {kept indentation : Text}
    (written : draft.written = kept ++ indentation) :
    draft.dropIndentation indentation = { draft with written := kept } := by
  simp [dropIndentation, written]

theorem dropLine_eq
    {draft : Draft}
    {line rest : Text}
    (unread : draft.unread = line ++ rest) :
    draft.dropLine line =
      { draft with
        unread := rest,
        line := draft.line + line.countLineBreaks } := by
  simp [dropLine, unread]

/--
Remove the line around a tag that is alone there, and tell its indentation.
-/
def trimLine (draft : Draft) : Option Text × Draft :=
  match Text.lineBetween? draft.written draft.unread with
  | some (indentation, line) =>
    (some indentation, (draft.dropIndentation indentation).dropLine line)
  | none => (none, draft)

/--
Remove the line around a close tag that is alone there, from the body and from
what follows.
-/
def trimCloser (draft : Draft) (body : Text) : Text × Draft :=
  match body.innerIndentation?, draft.unread.lineAtStart? with
  | some indentation, some line =>
    (body.take (body.length - indentation.length), draft.dropLine line)
  | _, _ => (body, draft)

/--
Remove the line around an opener that is alone there, and tell its indentation.
-/
def trimOpener (draft : Draft) (body : Text) : Option Text × Text × Draft :=
  match Text.indentationAtEnd? draft.written.reverse, body.innerLine? with
  | some indentation, some line =>
    (some indentation, body.drop line.length, draft.dropIndentation indentation)
  | _, _ => (none, body, draft)

theorem trimCloser_of_none
    {draft : Draft}
    {body : Text}
    (nothing :
      body.innerIndentation? = none ∨ draft.unread.lineAtStart? = none) :
    draft.trimCloser body = (body, draft) := by
  unfold trimCloser
  rcases nothing with none | none
  · simp only [none]
  · cases body.innerIndentation? <;> simp only [none]

theorem trimOpener_of_none
    {draft : Draft}
    {body : Text}
    (nothing :
      Text.indentationAtEnd? draft.written.reverse = none ∨
      body.innerLine? = none) :
    draft.trimOpener body = (none, body, draft) := by
  unfold trimOpener
  rcases nothing with none | none
  · simp only [none]
  · cases Text.indentationAtEnd? draft.written.reverse <;> simp only [none]

/-- Write what a leaf stands for. -/
def expandLeaf
    (lambdas : Lambdas)
    (render : TemplateRenderer)
    (partials : Partials)
    (draft : Draft)
    (piece : Piece) : RenderM Draft := do
  match piece.kind with
  | .comment | .setDelimiters => pure draft.trimLine.2
  | .interpolation | .implicit =>
    let text ← interpolate lambdas render piece.name
    pure (draft.write text.escapeMarkup)
  | .unescaped =>
    let text ← interpolate lambdas render piece.name
    pure (draft.write text)
  | .inclusion =>
    let text ←
      includePartial render partials piece.name (draft.trimLine.1.getD [])
    pure (draft.trimLine.2.write text)
  | .text | .opener | .invertedOpener | .closer =>
    pure (draft.write piece.source)

/-- Write what a section stands for. -/
def expandPaired
    (lambdas : Lambdas)
    (render : TemplateRenderer)
    (partials : Partials)
    (delimiters : Delimiters)
    (draft : Draft)
    (opener : Piece)
    (body : Text) : RenderM Draft := do
  let (body, draft) := draft.trimCloser body
  let (indentation, body, draft) := draft.trimOpener body
  let text ←
    expandBody lambdas render partials delimiters opener.kind opener.name body
      indentation.isSome
  pure (draft.write text)

/-- Write what a block stands for. -/
def expandBlock
    (lambdas : Lambdas)
    (render : TemplateRenderer)
    (partials : Partials)
    (delimiters : Delimiters)
    (draft : Draft) : Block → RenderM Draft
  | .leaf piece => draft.expandLeaf lambdas render partials piece
  | .paired opener body _ =>
    draft.expandPaired lambdas render partials delimiters opener body

/-- Read the next block and write what it stands for. -/
def step
    (lambdas : Lambdas)
    (render : TemplateRenderer)
    (partials : Partials) :
    Draft × Delimiters → RenderM (Text ⊕ Draft × Delimiters)
  | (draft, delimiters) =>
    match scanNode delimiters draft.unread with
    | .finished => pure (.inl (draft.written ++ draft.unread))
    | .faulty before fault =>
      throw
        (.failed
          (fault.onLine
            (draft.line + before.lineBreaksAfter draft.written.getLast?)))
    | .found skipped block after rest => do
      let draft ←
        (draft.pass skipped block.source rest).expandBlock lambdas render
          partials delimiters block
      pure (.inr (draft, after))

variable {excused : Stop → Prop} {nested nested' : TemplateRenderer}

/--
What a block stands for depends on the nested renderer only through what it
renders.
-/
theorem agree_expandBlock
    (renderers : RenderersAgree excused nested nested')
    (lambdas : Lambdas)
    (partials : Partials)
    (delimiters : Delimiters)
    (draft : Draft)
    (block : Block) :
    Agree excused Eq
      (draft.expandBlock lambdas nested partials delimiters block)
      (draft.expandBlock lambdas nested' partials delimiters block) := by
  cases block with
  | leaf piece =>
    have always := renderers.on fun _ => True
    have interpolated := agree_interpolate always True.intro lambdas piece.name
    have included := agree_includePartial always True.intro partials piece.name
    show Agree excused Eq (draft.expandLeaf lambdas nested partials piece)
      (draft.expandLeaf lambdas nested' partials piece)
    unfold expandLeaf
    cases piece.kind with
    | comment | setDelimiters | text | opener | invertedOpener | closer =>
      exact Agree.refl _
    | interpolation | implicit | unescaped =>
      apply interpolated.bind
      rintro text _ rfl
      exact Agree.refl _
    | inclusion =>
      apply (included (draft.trimLine.1.getD [])).bind
      rintro text _ rfl
      exact Agree.refl _
  | paired opener body closer =>
    have always := renderers.on fun _ => True
    apply (agree_expandBody always True.intro lambdas partials _ _ _ _).bind
    rintro text _ rfl
    exact Agree.refl _

theorem agree_step
    (renderers : RenderersAgree excused nested nested')
    (lambdas : Lambdas)
    (partials : Partials)
    (state : Draft × Delimiters) :
    Agree excused Eq (step lambdas nested partials state)
      (step lambdas nested' partials state) := by
  rcases state with ⟨draft, delimiters⟩
  simp only [step]
  cases scanNode delimiters draft.unread with
  | finished => exact Agree.refl _
  | faulty before fault => exact Agree.refl _
  | found skipped block after rest =>
    apply (agree_expandBlock renderers lambdas partials delimiters _ block).bind
    rintro draft _ rfl
    exact Agree.refl _

/-- The renderer with two texts. -/
def machine (lambdas : Lambdas) : Machine (Draft × Delimiters) where
  start template delimiters := (ofText template, delimiters)
  step := step lambdas

end Draft

end Mustache
