import Mustache.Proofs.Draft.Refinement

/-!
# The renderer in place simulates the renderer with two texts

Both renderers are machines.  One step of either takes a buffer that holds a
draft to a buffer that holds the draft after the step, provided the pairs in
effect before and after the node are solid, and nested templates are rendered
alike.
-/

namespace Mustache

open RenderM

/-- The renderer that edits a buffer in place. -/
def bufferMachine (lambdas : Lambdas) : Machine (Reader × Delimiters) where
  start template delimiters := (Reader.ofText template, delimiters)
  step := expandNext lambdas

theorem expandRest_eq_run
    (lambdas : Lambdas)
    (fuel : Nat)
    (partials : Partials)
    (state : Reader × Delimiters) :
    expandRest lambdas fuel partials state =
      (bufferMachine lambdas).run fuel partials state := by
  induction fuel generalizing partials state with
  | zero => rfl
  | succ fuel ih =>
    have nested : (fun template partials delimiters =>
        expandRest lambdas fuel partials (Reader.ofText template, delimiters)) =
          (bufferMachine lambdas).render fuel := by
      funext template partials delimiters
      exact ih partials _
    rw [expandRest, Machine.run_succ]
    simp only [nested]
    show
      expandNext lambdas _ partials state >>= _ =
        expandNext lambdas _ partials state >>= _
    congr 1
    funext answer
    cases answer with
    | inl text => rfl
    | inr state => exact ih partials state

theorem interpretWithin_eq_render
    (lambdas : Lambdas)
    (fuel : Nat) :
    interpretWithin lambdas fuel = (bufferMachine lambdas).render fuel := by
  funext template partials delimiters
  exact expandRest_eq_run lambdas fuel partials _

theorem bufferMachine_step
    (lambdas : Lambdas)
    (fuel : Nat) :
    (bufferMachine lambdas).step ((bufferMachine lambdas).render fuel) =
      expandNext lambdas (interpretWithin lambdas fuel) := by
  rw [interpretWithin_eq_render]
  rfl

variable
    {excused : Stop → Prop}
    {allowed : Delimiters → Prop}
    {nested nested' : TemplateRenderer}
    {reader : Reader}
    {draft : Draft}
    {token : Token}
    {piece : Piece}

/-- Putting a text in the place of a leaf is writing it. -/
theorem agree_replace
    (shows : reader.Shows draft token piece.source)
    (text : Text) :
    Agree excused (fun draft reader => (reader.release token).Holds draft)
      (pure (draft.write text))
      (ofEdit (reader.replace? token.start token.stop text)) := by
  rcases shows.replace text with ⟨replaced, isReplaced, holds⟩
  rw [isReplaced]
  exact Agree.pure holds

theorem agree_expandLeaf
    (renderers : RenderersAgreeOn allowed excused nested nested')
    (standard : allowed .standard)
    (lambdas : Lambdas)
    (partials : Partials)
    (same : token.piece = piece)
    (shows : reader.Shows draft token piece.source) :
    Agree excused (fun draft reader => (reader.release token).Holds draft)
      (draft.expandLeaf lambdas nested partials piece)
      (expandLeaf lambdas nested' partials reader token) := by
  have name : token.name = piece.name := congrArg Piece.name same
  have kind : token.kind = piece.kind := congrArg Piece.kind same
  have interpolated := agree_interpolate renderers standard lambdas piece.name
  have included := agree_includePartial renderers standard partials piece.name
  rcases shows.trim with ⟨trimmed, isTrimmed, showsTrimmed⟩
  unfold Draft.expandLeaf expandLeaf
  rw [kind, name, isTrimmed]
  cases piece.kind with
  | comment | setDelimiters =>
    have written : draft.trimLine.2.write [] = draft.trimLine.2 := by
      simp [Draft.write]
    rw [← written]
    exact agree_replace showsTrimmed []
  | interpolation | implicit =>
    apply interpolated.bind
    rintro text _ rfl
    exact agree_replace shows text.escapeMarkup
  | unescaped =>
    apply interpolated.bind
    rintro text _ rfl
    exact agree_replace shows text
  | inclusion =>
    apply (included (draft.trimLine.1.getD [])).bind
    rintro text _ rfl
    exact agree_replace showsTrimmed text
  | text | opener | invertedOpener | closer => exact Agree.pure shows.keep

theorem agree_expandPaired
    (renderers : RenderersAgreeOn allowed excused nested nested')
    {delimiters : Delimiters}
    (isAllowed : allowed delimiters)
    (lambdas : Lambdas)
    (partials : Partials)
    {opener closer : Token}
    {openerPiece : Piece}
    {body closerSource : Text}
    (same : opener.piece = openerPiece)
    (encloses :
      reader.Encloses draft opener closer openerPiece.source body closerSource)
    (inkedOpener : Text.indentationAtEnd? openerPiece.source.reverse = none)
    (inkedCloser : closerSource.lineAtStart? = none) :
    Agree excused
      (fun draft reader => ((reader.release opener).release closer).Holds draft)
      (draft.expandPaired lambdas nested partials delimiters openerPiece body)
      (expandPaired lambdas nested' partials delimiters reader opener
        closer) := by
  have name : opener.name = openerPiece.name := congrArg Piece.name same
  have kind : opener.kind = openerPiece.kind := congrArg Piece.kind same
  rcases encloses.trimCloser inkedOpener with ⟨between, isBetween, closed⟩
  rcases closed.trimOpener inkedCloser with ⟨trimmed, isTrimmed, opened⟩
  have bodies := opened.body_eq
  unfold Draft.expandPaired expandPaired
  rw [isBetween]
  show Agree excused _ _ (ofEdit (between.trimLine? opener) >>= _)
  rw [isTrimmed, kind, name]
  show Agree excused _ _ (expandBody lambdas nested' partials delimiters _ _
    (trimmed.buffer.substring _ _) _ >>= _)
  rw [bodies]
  apply (agree_expandBody renderers isAllowed lambdas partials _ _ _ _).bind
  rintro text _ rfl
  rcases opened.replace text with ⟨replaced, isReplaced, holds⟩
  rw [isReplaced]
  exact Agree.pure holds

/-- The pairs in effect before and after the next node. -/
def pairsAtNext (unread : Text) (delimiters : Delimiters) : List Delimiters :=
  delimiters ::
    match scanNode delimiters unread with
    | .found _ _ after _ => [after]
    | _ => []

/-- The buffer of a reader holds a draft, and the same pair is in effect. -/
def HoldsAlike
    (state : Draft × Delimiters)
    (state' : Reader × Delimiters) : Prop :=
  state'.1.Holds state.1 ∧ state'.2 = state.2

/--
The lines of a section's tags are not cut across the tags: neither the last line
of its opener nor the first line of its close tag is blank.
-/
def Block.Inked : Block → Prop
  | leaf _ => True
  | paired opener _ closer =>
    Text.indentationAtEnd? opener.source.reverse = none ∧
    closer.source.lineAtStart? = none

/--
The tags of a section are never blank at their edges when the pairs around them
are solid.
-/
theorem inked_of_solid
    {delimiters after : Delimiters}
    {unread skipped rest : Text}
    {block : Block}
    (result : scanNode delimiters unread = .found skipped block after rest)
    (before : delimiters.Solid)
    (behind : after.Solid) : block.Inked := by
  cases block with
  | leaf piece => exact True.intro
  | paired opener body closer =>
    rcases scanNode_eq_paired result with ⟨-, -, opening, closing⟩
    rcases opening.last_solid before with ⟨last, isLast, lastSolid⟩
    rcases closing.head_solid behind with ⟨first, isFirst, firstSolid⟩
    exact ⟨Text.indentationAtEnd?_of_getLast isLast lastSolid,
      Text.lineAtStart?_of_head isFirst firstSolid⟩

theorem agree_expandNode
    (renderers : RenderersAgreeOn allowed excused nested nested')
    (standard : allowed .standard)
    {delimiters : Delimiters}
    (isAllowed : allowed delimiters)
    (lambdas : Lambdas)
    (partials : Partials)
    (holds : reader.Holds draft)
    {skipped rest : Text}
    {block : Block}
    {node : Node}
    {read : Reader}
    (took : Reader.NodeTook reader read draft.written skipped rest block node)
    (inked : block.Inked) :
    Agree excused (fun draft reader => reader.Holds draft)
      ((draft.pass skipped block.source rest).expandBlock lambdas nested
        partials delimiters block)
      (expandNode lambdas nested' partials delimiters read node) := by
  unfold expandNode
  cases took with
  | leaf took =>
    exact (agree_expandLeaf renderers standard lambdas partials took.piece_eq
      (holds.shows took)).then_pure
  | paired took closed =>
    exact (agree_expandPaired renderers isAllowed lambdas partials took.piece_eq
      (holds.encloses took closed) inked.1 inked.2).then_pure

/-- One step in place is one step with two texts. -/
theorem agree_step
    (renderers : RenderersAgreeOn allowed excused nested nested')
    (standard : allowed .standard)
    {delimiters : Delimiters}
    (isAllowed : allowed delimiters)
    (lambdas : Lambdas)
    (partials : Partials)
    (holds : reader.Holds draft)
    (inked :
      ∀ skipped block after rest,
        scanNode delimiters draft.unread = .found skipped block after rest →
        block.Inked) :
    Agree excused (Sum.LiftRel Eq HoldsAlike)
      (Draft.step lambdas nested partials (draft, delimiters))
      (expandNext lambdas nested' partials (reader, delimiters)) := by
  have standing := holds.standing
  unfold Draft.step expandNext
  cases result : scanNode delimiters draft.unread with
  | finished =>
    rcases Reader.nextNode_of_finished standing result with ⟨after, read, text⟩
    rw [standing.text_eq] at text
    simp only [read, result]
    exact Agree.pure (.inl text.symm)
  | faulty before fault =>
    rcases Reader.nextNode_of_faulty standing result with ⟨after, read⟩
    simp only [read, result, holds.line_eq]
    exact agree_throw _
  | found skipped block after rest =>
    rcases Reader.nextNode_of_found standing result with
      ⟨node, left, read, took⟩
    have notBlank := inked skipped block after rest result
    simp only [read, result]
    apply
      (agree_expandNode renderers standard isAllowed lambdas partials holds took
        notBlank).bind
    intro draft reader holds
    exact Agree.pure (.inr ⟨holds, rfl⟩)

/--
With solid pairs around every node, nothing is blank at the edges of a section's
tags.
-/
theorem inked_of_pairsAtNext
    {unread : Text}
    {delimiters : Delimiters}
    (solid : ∀ pair ∈ pairsAtNext unread delimiters, pair.Solid)
    (skipped : Text)
    (block : Block)
    (after : Delimiters)
    (rest : Text)
    (result : scanNode delimiters unread = .found skipped block after rest) :
    block.Inked := by
  simp only [pairsAtNext, result, List.mem_cons, List.not_mem_nil, or_false,
    forall_eq_or_imp, forall_eq] at solid
  exact inked_of_solid result solid.1 solid.2

namespace Draft

variable {delimiters : Delimiters}

/-! ## A step in place and with two texts -/

/-- What a step with two texts comes to, a step in place comes to. -/
def StepsInPlace
    (state : Reader × Delimiters)
    (lambdas : Lambdas)
    (render : TemplateRenderer)
    (partials : Partials)
    (world : World) : Except Stop (Text ⊕ Draft × Delimiters) × World → Prop
  | (.ok (.inl text), left) =>
    expandNext lambdas render partials state world = (.ok (.inl text), left)
  | (.ok (.inr (draft, after)), left) =>
    ∃ reader,
      expandNext lambdas render partials state world =
        (.ok (.inr (reader, after)), left) ∧
      reader.Holds draft
  | (.error stop, left) =>
    expandNext lambdas render partials state world = (.error stop, left)

theorem stepsInPlace
    (holds : reader.Holds draft)
    (solid : ∀ pair ∈ pairsAtNext draft.unread delimiters, pair.Solid)
    (lambdas : Lambdas)
    (render : TemplateRenderer)
    (partials : Partials)
    (world : World) :
    StepsInPlace (reader, delimiters) lambdas render partials world
      (step lambdas render partials (draft, delimiters) world) := by
  have itself :
      RenderersAgreeOn (fun _ => True) (fun _ => False) render render :=
    fun _ _ _ _ => Agree.refl _
  rcases Mustache.agree_step itself True.intro True.intro lambdas partials holds
    (inked_of_pairsAtNext solid) world with ⟨_, -, ⟨⟩⟩ | ⟨same, worlds⟩
  generalize isStep :
    step lambdas render partials (draft, delimiters) world = outcome
    at same worlds ⊢
  generalize isNext :
    expandNext lambdas render partials (reader, delimiters) world = outcome'
    at same worlds
  rcases outcome with ⟨stop | answer, left⟩
  · rcases outcome' with ⟨stop' | answer', left'⟩ <;> cases worlds <;>
      cases same
    exact isNext
  · rcases outcome' with ⟨stop' | answer', left'⟩ <;> cases worlds
    · cases same
    · cases same with
      | inl texts =>
        cases texts
        exact isNext
      | inr states =>
        rename_i state state'
        rcases state with ⟨draft', after⟩
        rcases state' with ⟨reader', _⟩
        rcases states with ⟨held, rfl⟩
        exact ⟨reader', isNext, held⟩

end Draft

end Mustache
