import Mustache.Proofs.Draft.Equivalence
import Mustache.Proofs.Draft.Progress
import Mustache.Proofs.Render.Pure
import Mustache.Proofs.Scan.Tags
import Mustache.Proofs.Value.Plain

/-!
# Blocks and plain data

With plain data a block stops only as its partial or its body does, or where a
value is shown that contains itself (`Draft.settles_blockText`).  What is
written for it depends on its kind, and for a partial or a section on what is
known of the texts that those are rendered to (`Block.Renders`).

Nothing is said here about templates.  What holds of a whole run follows by
induction, from a property of drafts that each block keeps
(`Draft.settles_cautiousStep`), and carries over to rendering in place
(`settles_of_cautious`).
-/

namespace Mustache

open RenderM

/--
What is known of the text that stands for a block, given what is known of the
texts that its partial and its body are rendered to.
-/
def Block.Renders (answers : Text → Prop) : Block → Text → Prop
  | .leaf piece, text =>
    match piece.kind with
    | .interpolation | .implicit => ∃ shown : Text, text = shown.escapeMarkup
    | .inclusion => text = [] ∨ answers text
    | .comment | .setDelimiters => text = []
    | .text | .opener | .invertedOpener | .closer => text = piece.source
    | .unescaped => True
  | .paired _ _ _, text => ∃ startsLine, MadeOf answers startsLine text

namespace Draft

variable
    {store : Store}
    {known : Value → Prop}
    {world : World}
    {lambdas : Lambdas}
    {render : TemplateRenderer}
    {partials : Partials}
    {delimiters : Delimiters}
    {draft : Draft}
    {stops : Stop → Prop}
    {answers : Text → Prop}

theorem trimLine_inline (draft : Draft) :
    ∀ character ∈ draft.trimLine.1.getD [],
      Text.isInlineBlank character = true := by
  rw [draft.cuts_trimLine.1]
  exact Text.isInlineBlank_of_indentationBetween? _ _

/--
A leaf stops only as its partial does, or where a value is shown that contains
itself.
-/
theorem settles_leafText
    (values : PlainValues store known)
    (within : world.Within store known)
    (endless : Unshowable store known → stops .endless)
    {piece : Piece}
    {indentation : Text}
    (includes :
      piece.kind = .inclusion →
      ∀ source,
        partials.get? (String.ofList piece.name) = some source →
        Settles world answers stops
          (render (Text.indent source.toList indentation) partials .standard))
    (lambdas : Lambdas) :
    Settles world ((Block.leaf piece).Renders answers) stops
      (leafText lambdas render partials piece indentation) := by
  have interpolated :=
    settles_interpolate (values.pure lambdas) within render endless piece.name
  show
    Settles world (fun text => (Block.leaf piece).Renders answers text) stops _
  simp only [leafText, Block.Renders]
  cases kind : piece.kind with
  | comment | setDelimiters | text | opener | invertedOpener | closer =>
    exact .pure rfl
  | interpolation | implicit =>
    exact interpolated.map fun shown _ => ⟨shown, rfl⟩
  | unescaped => exact interpolated
  | inclusion =>
    show Settles world (fun text => text = [] ∨ answers text) stops
      (includePartial render partials piece.name indentation)
    unfold includePartial
    split
    · exact .pure (.inl rfl)
    · rename_i source found
      split
      · exact .pure (.inl rfl)
      · exact (includes kind source found).mono (fun _ => .inr) fun _ => id

/--
A block stops only as its partial or its body does, or where a value contains
itself.
-/
theorem settles_blockText
    (values : PlainValues store known)
    (within : world.Within store known)
    (endless : Unshowable store known → stops .endless)
    (lambdas : Lambdas)
    (draft : Draft)
    (block : Block)
    (includes :
      ∀ piece,
        block = .leaf piece → piece.kind = .inclusion →
        ∀ source,
          partials.get? (String.ofList piece.name) = some source →
          ∀ indentation : Text,
            (∀ character ∈ indentation, Text.isInlineBlank character = true) →
            Settles world answers stops
              (render (Text.indent source.toList indentation) partials
                .standard))
    (bodies :
      ∀ opener body closer,
        block = .paired opener body closer →
        ∀ inner,
          body.TrimsTo inner →
          ∀ startsLine,
            ∀ world : World,
              world.Within store known →
              Settles world answers stops
                (render (guarded inner startsLine) partials delimiters)) :
    Settles world (block.Renders answers) stops
      (draft.blockText lambdas render partials delimiters block) := by
  cases block with
  | leaf piece =>
    exact settles_leafText values within endless
      (fun kind source found =>
        includes piece rfl kind source found _ draft.trimLine_inline)
      lambdas
  | paired opener body closer =>
    have nested := bodies opener body closer rfl _ (draft.trimmed_body body)
      (draft.trimTags body).1.isSome
    exact
      (settles_expandBody (values.pure lambdas) within nested opener.kind
        opener.name).mono
      (fun _ made => ⟨_, made⟩) fun _ => id

/-! ## A step -/

/--
The cautious renderer takes a step as the other renderers do, where the pairs
are solid.
-/
theorem settles_cautiousStep
    {next : Text ⊕ Draft × Delimiters → Prop}
    (solid : ∀ pair ∈ pairsAtNext draft.unread delimiters, pair.Solid)
    (finished :
      scanNode delimiters draft.unread = .finished →
      next (.inl (draft.written ++ draft.unread)))
    (faulty :
      ∀ before fault,
        scanNode delimiters draft.unread = .faulty before fault →
        ∀ line, stops (.failed (fault.onLine line)))
    (found :
      ∀ skipped block after rest,
        scanNode delimiters draft.unread = .found skipped block after rest →
        Settles world
          (fun text =>
            next
              (.inr
                (((draft.pass skipped block.source rest).trimAround block).write
                    text, after)))
          stops
          ((draft.pass skipped block.source rest).blockText lambdas render
            partials delimiters block)) :
    Settles world next stops
      ((cautious lambdas).step render partials (draft, delimiters)) := by
  have step : (cautious lambdas).step render partials (draft, delimiters) =
      Draft.step lambdas render partials (draft, delimiters) := if_pos solid
  rw [step]
  simp only [Draft.step]
  cases result : scanNode delimiters draft.unread with
  | finished => exact .pure (finished result)
  | faulty before fault => exact .throw (faulty before fault result _)
  | found skipped block after rest =>
    have expanded :
        Settles world (fun draft' => next (.inr (draft', after))) stops
          ((draft.pass skipped block.source rest).expandBlock lambdas render
            partials delimiters block) := by
      rw [expandBlock_eq]
      exact (found skipped block after rest result).map fun _ => id
    exact expanded.bind fun draft' holds => .pure holds

theorem pairsAtNext_subset
    (delimiters : Delimiters)
    (unread : Text) :
    ∀ pair ∈ pairsAtNext unread delimiters,
      pair ∈ pairsIn delimiters unread := by
  unfold pairsAtNext
  cases result : scanNode delimiters unread with
  | finished | faulty =>
    intro pair member
    exact List.mem_cons.2 (.inl (List.mem_singleton.1 member))
  | found skipped block after rest =>
    rcases survey_of_node_found result with ⟨tags, isAfter, surveyed⟩
    intro pair member
    rw [pairsIn, surveyed]
    apply pairsOf_subset (fun piece within => List.mem_append_left _ within)
      delimiters pair
    rcases List.mem_cons.1 member with rfl | member
    · exact List.mem_cons_self
    · rw [List.mem_singleton.1 member]
      exact isAfter

/-- After a block was expanded the survey goes on with what is unread then. -/
theorem survey_of_trimAround
    {skipped rest : Text}
    {block : Block}
    {after : Delimiters}
    (result :
      scanNode delimiters draft.unread = .found skipped block after rest)
    (solid : after.Solid) :
    let left := ((draft.pass skipped block.source rest).trimAround block).unread
    (∃ tags, after ∈ pairsOf delimiters tags ∧
      survey delimiters [] draft.unread =
        (tags ++ (survey after [] left).1, (survey after [] left).2)) ∧
      left.length < draft.unread.length := by
  intro left
  rcases shortens_trimAround (draft.pass skipped block.source rest) block with
    ⟨line, isRest, blank⟩
  have unread : rest = line ++ left := isRest
  have same : survey after [] rest = survey after [] left := by
    rw [unread]
    exact (passesText_survey after []).blank solid blank _
  rcases survey_of_node_found result with ⟨tags, isAfter, surveyed⟩
  refine ⟨⟨tags, isAfter, by rw [surveyed, same]⟩, ?_⟩
  have shorter := length_lt_of_scanNode result
  have least : left.length ≤ rest.length := by simp [unread]
  omega

end Draft

variable
    {world : World}
    {answers : Text → Prop}
    {stops : Stop → Prop}
    {lambdas : Lambdas}
    {fuel : Nat}
    {template : Text}
    {partials : Partials}
    {delimiters : Delimiters}

theorem solidRun_of_settles
    (settled :
      Settles world answers stops
        ((Draft.cautious lambdas).run fuel partials
          (Draft.ofText template, delimiters)))
    (never : ¬stops .cutsCharacter) :
    SolidRun lambdas fuel template partials delimiters world := by
  intro stopped
  have ends := settled world rfl
  have run :
      (Draft.cautious lambdas).run fuel partials
          (Draft.ofText template, delimiters) world =
        (Draft.cautious lambdas).render fuel template partials delimiters
          world :=
    rfl
  rw [run] at ends
  generalize (Draft.cautious lambdas).render fuel template partials delimiters
      world = outcome at ends stopped
  rcases outcome with ⟨_ | _, after⟩
  · cases stopped
    exact never ends.1
  · cases stopped

/--
What the cautious renderer ends with, rendering in place ends with, unless it
was too bold.
-/
theorem settles_of_cautious
    (settled :
      Settles world answers stops
        ((Draft.cautious lambdas).run fuel partials
          (Draft.ofText template, delimiters)))
    (never : ¬stops .cutsCharacter) :
    Settles world answers stops
      (interpretWithin lambdas fuel template partials delimiters) :=
  settled.congr (solidRun_of_settles settled never).eq_cautious.symm

end Mustache
