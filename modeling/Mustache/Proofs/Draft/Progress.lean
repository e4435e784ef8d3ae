import Mustache.Proofs.Draft.Basic
import Mustache.Proofs.Render.Outcome

/-!
# What a step takes off the two texts

Whatever the data, the lambdas and the nested renderer are, a step takes one
block off the unread text, cuts the lines of its tags where they are alone on
them (`Draft.trimAround`), and writes what stands for it
(`Draft.expandBlock_eq`).  What is cut is an indentation at the end of the
written text and a blank line at the start of the unread text.  The body of a
section loses a blank line at its start and an indentation at its end at most
(`Draft.trimmed_body`).
-/

namespace Mustache

open RenderM

/-- Does a leaf take its line with it where it is alone on it? -/
def TokenKind.takesLine : TokenKind → Bool
  | .comment | .setDelimiters | .inclusion => true
  | .text | .interpolation | .implicit | .unescaped | .opener | .invertedOpener
  | .closer =>
    false

/-- Does a leaf show a value? -/
def TokenKind.showsValue : TokenKind → Bool
  | .interpolation | .implicit | .unescaped => true
  | .text | .comment | .setDelimiters | .inclusion | .opener
  | .invertedOpener | .closer => false

/-- How a value's text is shown by a tag. -/
def TokenKind.shown (kind : TokenKind) (text : Text) : Text :=
  if kind = .unescaped then text else text.escapeMarkup

namespace Draft

variable {draft : Draft} {line : Text}

/-- Cut the lines of both tags of a section, where they are alone on them. -/
def trimTags (draft : Draft) (body : Text) : Option Text × Text × Draft :=
  (draft.trimCloser body).2.trimOpener (draft.trimCloser body).1

/-- Cut the lines of a block's tags, where they are alone on them. -/
def trimAround (draft : Draft) : Block → Draft
  | .leaf piece => if piece.kind.takesLine then draft.trimLine.2 else draft
  | .paired _ body _ => (draft.trimTags body).2.2

theorem trimAround_of_takesLine
    {piece : Piece}
    (takes : piece.kind.takesLine = true) :
    draft.trimAround (.leaf piece) = draft.trimLine.2 :=
  if_pos takes

theorem trimAround_of_not_takesLine
    {piece : Piece}
    (keeps : piece.kind.takesLine = false) :
    draft.trimAround (.leaf piece) = draft := by
  simp only [trimAround, keeps, Bool.false_eq_true, if_false]

/-! ## What is cut -/

/--
An indentation is cut off the written text, if there is one, and a line off the
unread text.
-/
structure Cuts
    (draft draft' : Draft)
    (indentation : Option Text)
    (line : Text) : Prop where
  written_eq : draft.written = draft'.written ++ indentation.getD []
  unread_eq : draft.unread = line ++ draft'.unread

theorem cuts_dropIndentation
    {indentation : Text}
    (isIndentation :
      Text.indentationAtEnd? draft.written.reverse = some indentation) :
    draft.Cuts (draft.dropIndentation indentation) (some indentation) [] := by
  rcases Text.indentationAtEnd?_eq_some isIndentation with ⟨kept, written, -⟩
  rw [dropIndentation_eq written]
  exact ⟨written, rfl⟩

theorem cuts_dropLine (isLine : draft.unread.lineAtStart? = some line) :
    draft.Cuts (draft.dropLine line) none line := by
  rcases Text.lineAtStart?_eq_some isLine with ⟨rest, unread, -⟩
  rw [dropLine_eq unread]
  exact ⟨by simp, unread⟩

/-- The line around a leaf is cut if the leaf is alone between the two texts. -/
theorem cuts_trimLine (draft : Draft) :
    draft.trimLine.1 = Text.indentationBetween? draft.written draft.unread ∧
    ∃ line,
      draft.Cuts draft.trimLine.2 draft.trimLine.1 line ∧
      Text.LineOf draft.trimLine.1 draft.unread line := by
  unfold trimLine
  split
  · rename_i indentation line alone
    rcases Text.lineBetween?_eq_some alone with ⟨isIndentation, isLine⟩
    have first := cuts_dropIndentation isIndentation
    have second : (draft.dropIndentation indentation).Cuts _ none line :=
      cuts_dropLine isLine
    refine ⟨?_, line, ⟨?_, second.unread_eq⟩, .of_some isLine⟩
    · exact (Text.indentationBetween?_of_some isIndentation isLine).symm
    · rw [first.written_eq, second.written_eq]
      simp
  · rename_i neighbours
    refine ⟨?_, [], ⟨by simp, rfl⟩, rfl⟩
    rw [Text.indentationBetween?, neighbours]
    rfl

/-!
## The lines of a section's tags

The opener stands between the written text and the body, and the close tag
between the body and the unread text.  What stands further off does not count,
as long as neither the text before the body ends in a blank line nor the text
after it starts with one.
-/

section Paired

variable {before after : Text}

/--
The line of a close tag is cut off the unread text, and its indentation off the
body.
-/
theorem trimCloser_spec
    (draft : Draft)
    (body : Text)
    (inked : Text.indentationAtEnd? before.reverse = none) :
    body =
      (draft.trimCloser body).1 ++
        (Text.indentationBetween? (before ++ body) draft.unread).getD [] ∧
    ∃ line,
      draft.Cuts (draft.trimCloser body).2 none line ∧
      Text.LineOf (Text.indentationBetween? (before ++ body) draft.unread)
        draft.unread line := by
  have inner := Text.indentationAtEnd?_append inked body
  rcases Text.both_or_none body.innerIndentation? draft.unread.lineAtStart? with
    ⟨indentation, line, isIndentation, isLine⟩ | nothing
  · rw [Text.indentationBetween?_of_some (inner.trans isIndentation) isLine]
    rcases Text.innerIndentation?_eq_some isIndentation with ⟨kept, isBody, -⟩
    simp only [trimCloser, isIndentation, isLine]
    exact ⟨by simp [isBody], line, cuts_dropLine isLine, .of_some isLine⟩
  · rw [Text.indentationBetween?_of_none (nothing.imp_left inner.trans),
      trimCloser_of_none nothing]
    exact ⟨(List.append_nil body).symm, [], ⟨by simp, rfl⟩, rfl⟩

/--
The indentation of an opener is cut off the written text, and its line off the
body.
-/
theorem trimOpener_spec
    (draft : Draft)
    (body : Text)
    (inked : after.lineAtStart? = none) :
    (draft.trimOpener body).1 =
      Text.indentationBetween? draft.written (body ++ after) ∧
    draft.Cuts (draft.trimOpener body).2.2 (draft.trimOpener body).1 [] ∧
    ∃ line,
      body = line ++ (draft.trimOpener body).2.1 ∧
      Text.LineOf (draft.trimOpener body).1 (body ++ after) line := by
  have inner := Text.lineAtStart?_append inked body
  rcases Text.both_or_none (Text.indentationAtEnd? draft.written.reverse)
      body.innerLine? with ⟨indentation, line, isIndentation, isLine⟩ | nothing
  · rw [Text.indentationBetween?_of_some isIndentation (inner.trans isLine)]
    rcases Text.innerLine?_eq_some isLine with ⟨rest, isBody, -⟩
    simp only [trimOpener, isIndentation, isLine]
    exact ⟨trivial, cuts_dropIndentation isIndentation, line, by simp [isBody],
      .of_some (inner.trans isLine)⟩
  · rw [Text.indentationBetween?_of_none (nothing.imp_right inner.trans),
      trimOpener_of_none nothing]
    exact ⟨rfl, ⟨by simp, rfl⟩, [], rfl, rfl⟩

/--
The lines of both tags of a section: what is cut around the section, and what is
left of its body in between.  For the opener, the indentation of the close tag
is part of what stands behind it.
-/
theorem trimTags_spec
    (draft : Draft)
    (body : Text)
    (inkedBefore : Text.indentationAtEnd? before.reverse = none)
    (inkedAfter : after.lineAtStart? = none) :
    (draft.trimTags body).1 =
      Text.indentationBetween? draft.written (body ++ after) ∧
    (∃ line,
      draft.Cuts (draft.trimTags body).2.2 (draft.trimTags body).1 line ∧
      Text.LineOf (Text.indentationBetween? (before ++ body) draft.unread)
        draft.unread line) ∧
    ∃ first,
      body =
        first ++
          ((draft.trimTags body).2.1 ++
            (Text.indentationBetween? (before ++ body) draft.unread).getD []) ∧
      Text.LineOf (draft.trimTags body).1 (body ++ after) first := by
  rcases trimCloser_spec draft body inkedBefore with
    ⟨isBody, line, closed, isLine⟩
  have inked :=
    Text.lineAtStart?_of_inline_append
      (Text.isInlineBlank_of_indentationBetween? (before ++ body) draft.unread)
      inkedAfter
  rcases trimOpener_spec (draft.trimCloser body).2 (draft.trimCloser body).1
      inked with ⟨alone, opened, first, isKept, isFirst⟩
  have written : draft.written = (draft.trimCloser body).2.written := by
    simpa using closed.written_eq
  rw [← List.append_assoc, ← isBody, ← written] at alone
  rw [← List.append_assoc, ← isBody] at isFirst
  refine ⟨alone, ⟨line, ⟨written.trans opened.written_eq, ?_⟩, isLine⟩, first,
    ?_, isFirst⟩
  · rw [closed.unread_eq, opened.unread_eq]
    rfl
  · calc
      body = (draft.trimCloser body).1 ++ _ := isBody
      _ = first ++ (draft.trimTags body).2.1 ++ _ := congrArg (· ++ _) isKept
      _ = first ++ ((draft.trimTags body).2.1 ++ _) := List.append_assoc ..

/-- A text that is nothing but a guard will do on either side of a body. -/
theorem inked_guard :
    Text.indentationAtEnd? (List.reverse ['=']) = none ∧
    Text.lineAtStart? ['='] = none := by
  decide

/--
A body loses a blank line at its start and an indentation at its end at most.
-/
theorem trimmed_body
    (draft : Draft)
    (body : Text) :
    body.TrimsTo (draft.trimTags body).2.1 := by
  rcases draft.trimTags_spec body inked_guard.1 inked_guard.2 with
    ⟨-, -, line, isBody, isLine⟩
  exact ⟨line, _, isBody, isLine.blank,
    fun character member =>
      Text.isBlank_of_isInlineBlank
        (Text.isInlineBlank_of_indentationBetween? _ _ character member)⟩

end Paired

/-! ## A block and a step -/

/-- An indentation and a blank line are cut around a block at most. -/
theorem cuts_trimAround
    (draft : Draft)
    (block : Block) :
    ∃ indentation line,
      draft.Cuts (draft.trimAround block) indentation line ∧
      (∀ character ∈ indentation.getD [], Text.isInlineBlank character = true) ∧
      ∀ character ∈ line, Text.isBlank character = true := by
  cases block with
  | leaf piece =>
    cases takes : piece.kind.takesLine with
    | true =>
      rw [trimAround_of_takesLine takes]
      rcases draft.cuts_trimLine with ⟨alone, line, cuts, isLine⟩
      refine ⟨_, line, cuts, ?_, isLine.blank⟩
      rw [alone]
      exact Text.isInlineBlank_of_indentationBetween? _ _
    | false =>
      rw [trimAround_of_not_takesLine takes]
      exact ⟨none, [], ⟨by simp, rfl⟩, by simp, by simp⟩
  | paired opener body closer =>
    rcases draft.trimTags_spec body inked_guard.1 inked_guard.2 with
      ⟨alone, ⟨line, cuts, isLine⟩, -⟩
    refine ⟨_, line, cuts, ?_, isLine.blank⟩
    rw [alone]
    exact Text.isInlineBlank_of_indentationBetween? _ _

/--
A written text that starts with no blank still starts so when an indentation is
cut off.
-/
theorem head?_trimAround
    {draft : Draft}
    {first : Char}
    (isFirst : draft.written.head? = some first)
    (solid : Text.isBlank first = false)
    (block : Block) :
    (draft.trimAround block).written.head? = some first := by
  rcases draft.cuts_trimAround block with ⟨indentation, _, cuts, inline, -⟩
  have written := cuts.written_eq
  cases kept : (draft.trimAround block).written with
  | nil =>
    rw [kept, List.nil_append] at written
    rw [written] at isFirst
    have blank :=
      Text.isBlank_of_isInlineBlank (inline first (List.mem_of_head? isFirst))
    rw [solid] at blank
    cases blank
  | cons character more =>
    rw [kept] at written
    rw [written] at isFirst
    exact isFirst

/-- Nothing but a blank line is taken off the unread text. -/
def Shortens (draft draft' : Draft) : Prop :=
  ∃ line, draft.unread = line ++ draft'.unread ∧
    ∀ character ∈ line, Text.isBlank character = true

theorem shortens_trimAround
    (draft : Draft)
    (block : Block) :
    draft.Shortens (draft.trimAround block) := by
  rcases draft.cuts_trimAround block with ⟨_, line, cuts, -, blank⟩
  exact ⟨line, cuts.unread_eq, blank⟩

/-- What stands for a leaf, given the indentation of its line. -/
def leafText
    (lambdas : Lambdas)
    (render : TemplateRenderer)
    (partials : Partials)
    (piece : Piece)
    (indentation : Text) : RenderM Text :=
  match piece.kind with
  | .comment | .setDelimiters => pure []
  | .interpolation | .implicit =>
    Text.escapeMarkup <$> interpolate lambdas render piece.name
  | .unescaped => interpolate lambdas render piece.name
  | .inclusion => includePartial render partials piece.name indentation
  | .text | .opener | .invertedOpener | .closer => pure piece.source

theorem leafText_of_showsValue
    {piece : Piece}
    (isValue : piece.kind.showsValue = true)
    (lambdas : Lambdas)
    (render : TemplateRenderer)
    (partials : Partials)
    (indentation : Text) :
    leafText lambdas render partials piece indentation =
      piece.kind.shown <$> interpolate lambdas render piece.name := by
  unfold leafText
  cases kind : piece.kind with
  | interpolation | implicit => rfl
  | unescaped => exact (id_map _).symm
  | text | comment | setDelimiters | inclusion | opener | invertedOpener
  | closer =>
    rw [kind] at isValue
    cases isValue

/-- What stands for a block. -/
def blockText
    (lambdas : Lambdas)
    (render : TemplateRenderer)
    (partials : Partials)
    (delimiters : Delimiters)
    (draft : Draft) : Block → RenderM Text
  | .leaf piece =>
    leafText lambdas render partials piece (draft.trimLine.1.getD [])
  | .paired opener body _ =>
    expandBody lambdas render partials delimiters opener.kind opener.name
      (draft.trimTags body).2.1 (draft.trimTags body).1.isSome

/--
The lines of a block's tags are cut, and what stands for the block is written.
-/
theorem expandBlock_eq
    (lambdas : Lambdas)
    (render : TemplateRenderer)
    (partials : Partials)
    (delimiters : Delimiters)
    (draft : Draft)
    (block : Block) :
    draft.expandBlock lambdas render partials delimiters block =
      (draft.trimAround block).write <$>
        draft.blockText lambdas render partials delimiters block := by
  cases block with
  | leaf piece =>
    simp only [expandBlock, expandLeaf, blockText, leafText, map_eq_pure_bind]
    cases kind : piece.kind with
    | comment | setDelimiters =>
      rw [trimAround_of_takesLine (by rw [kind]; rfl), pure_bind]
      simp [write]
    | inclusion => rw [trimAround_of_takesLine (by rw [kind]; rfl)]
    | interpolation | implicit =>
      rw [trimAround_of_not_takesLine (by rw [kind]; rfl), bind_assoc]
      simp only [pure_bind]
    | unescaped => rw [trimAround_of_not_takesLine (by rw [kind]; rfl)]
    | text | opener | invertedOpener | closer =>
      rw [trimAround_of_not_takesLine (by rw [kind]; rfl), pure_bind]
  | paired opener body closer =>
    rw [map_eq_pure_bind]
    rfl

/--
A step over a block goes on behind it, unless what stands for the block has no
answer.
-/
theorem step_of_found
    {lambdas : Lambdas}
    {render : TemplateRenderer}
    {partials : Partials}
    {delimiters after : Delimiters}
    {skipped rest : Text}
    {block : Block}
    (result :
      scanNode delimiters draft.unread = .found skipped block after rest)
    (world : World) :
    step lambdas render partials (draft, delimiters) world =
      match (draft.pass skipped block.source rest).blockText lambdas render
          partials delimiters block world with
      | (.ok text, left) =>
        (.ok
            (.inr
              (((draft.pass skipped block.source rest).trimAround block).write
                  text, after)), left)
      | (.error stop, left) => (.error stop, left) := by
  simp only [step, result, expandBlock_eq, map_eq_pure_bind, run_bind]
  rcases (draft.pass skipped block.source rest).blockText lambdas render
      partials delimiters block world with ⟨_ | _, _⟩ <;> rfl

/--
Whatever the data are, the lines of a block's tags are cut and the text that
stands for the block is written.
-/
theorem meets_expandBlock
    (lambdas : Lambdas)
    (render : TemplateRenderer)
    (partials : Partials)
    (delimiters : Delimiters)
    (draft : Draft)
    (block : Block) :
    Meets (fun _ => True)
      (fun draft' _ => ∃ text, draft' = (draft.trimAround block).write text)
      (fun _ _ => True)
      (draft.expandBlock lambdas render partials delimiters block) := by
  rw [expandBlock_eq, map_eq_pure_bind]
  apply
    (meets_trivial
      (draft.blockText lambdas render partials delimiters block)).bind
  intro text
  exact Meets.pure fun _ _ => ⟨text, rfl⟩

/-- What the next block does to a draft. -/
def Advances
    (draft : Draft)
    (delimiters : Delimiters) : Text ⊕ Draft × Delimiters → Prop
  | .inl _ => scanNode delimiters draft.unread = .finished
  | .inr (draft', after) =>
    ∃ skipped block rest text,
      scanNode delimiters draft.unread = .found skipped block after rest ∧
      draft' =
        ((draft.pass skipped block.source rest).trimAround block).write text

/--
A step takes a block off the unread text, and a blank line after it at most.
-/
theorem Advances.shortens
    {draft draft' : Draft}
    {delimiters after : Delimiters}
    (advances : draft.Advances delimiters (.inr (draft', after))) :
    ∃ skipped block line,
      scanNode delimiters draft.unread =
        .found skipped block after (line ++ draft'.unread) ∧
      ∀ character ∈ line, Text.isBlank character = true := by
  rcases advances with ⟨skipped, block, rest, text, result, rfl⟩
  rcases shortens_trimAround (draft.pass skipped block.source rest) block with
    ⟨line, unread, blank⟩
  exact ⟨skipped, block, line, result.trans (congrArg _ unread), blank⟩

theorem meets_step
    (lambdas : Lambdas)
    (render : TemplateRenderer)
    (partials : Partials)
    (draft : Draft)
    (delimiters : Delimiters) :
    Meets (fun _ => True) (fun next _ => draft.Advances delimiters next)
      (fun _ _ => True) (step lambdas render partials (draft, delimiters)) := by
  simp only [step]
  cases result : scanNode delimiters draft.unread with
  | finished => exact Meets.pure fun _ _ => result
  | faulty before fault => exact fun _ _ => True.intro
  | found skipped block after rest =>
    apply (meets_expandBlock lambdas render partials delimiters _ block).bind
    rintro draft' world ⟨text, isDraft⟩
    exact ⟨skipped, block, rest, text, result, isDraft⟩

end Draft

end Mustache
