import Mustache.Proofs.Draft.Progress
import Mustache.Proofs.Draft.Simulation
import Mustache.Proofs.Scan.Outline

/-!
# Output is not read again

The renderer edits the buffer that it reads from.  Still, the tags it meets, and
the delimiter pairs in effect after them, are those of the template as it was:
they are a first part of the template's outline, and all of it when the run
succeeds.  No data, no lambda and no partial has a say in that.

What a step leaves unread is what follows the block, less a blank line at most
(`Draft.meets_step`), and a blank line has no part in the outline.
-/

namespace Mustache

open RenderM

/-- What is visited when a node is read.  Text between tags is not. -/
def Node.visits (node : Node) (after : Delimiters) : List Visit :=
  match node with
  | leaf token =>
    if token.kind = .text then
      []
    else
      [⟨token.kind, token.name, token.source, none, after⟩]
  | paired opener closer =>
    [⟨opener.kind, opener.name, opener.source, some closer.source, after⟩]

namespace Reader

/--
The visits of a reader that reads on to the end of its buffer, which nobody
edits.
-/
def visitsFrom : Nat → Reader → Delimiters → List Visit
  | 0, _, _ => []
  | budget + 1, reader, delimiters =>
    match reader.nextNode delimiters with
    | (.ok (some node), after, reader) =>
      node.visits after ++ visitsFrom budget reader after
    | _ => []

/-- What is visited when the next node is read. -/
def nextVisits (state : Reader × Delimiters) : List Visit :=
  match state.1.nextNode state.2 with
  | (.ok (some node), after, _) => node.visits after
  | _ => []

theorem NodeTook.visits_eq
    {reader read : Reader}
    {passed skipped rest : Text}
    {block : Block}
    {node : Node}
    (took : NodeTook reader read passed skipped rest block node)
    (after : Delimiters) :
    node.visits after = block.visits after := by
  cases took with
  | leaf took =>
    simp only
      [Node.visits, Block.visits, took.kind_eq, took.name_eq, took.source_eq]
  | paired took closed =>
    have source := congrArg Piece.source closed.piece_eq
    simp only
      [Node.visits, Block.visits, took.kind_eq, took.name_eq, took.source_eq]
    exact congrArg (fun text => [Visit.mk _ _ _ (some text) _]) source

/-- Reading on to the end visits the outline of the unread text. -/
theorem visitsFrom_eq
    {reader : Reader}
    {passed unread : Text}
    (delimiters : Delimiters)
    (standing : reader.At passed unread)
    {budget : Nat}
    (enough : unread.length < budget) :
    visitsFrom budget reader delimiters = (outline delimiters unread).1 := by
  induction budget generalizing reader passed unread delimiters with
  | zero => cases enough
  | succ budget ih =>
    rw [visitsFrom]
    cases result : scanNode delimiters unread with
    | finished =>
      rcases nextNode_of_finished standing result with ⟨after, read, -⟩
      simp only [read, outline_of_finished result]
    | faulty before fault =>
      rcases nextNode_of_faulty standing result with ⟨after, read⟩
      simp only [read, outline_of_faulty result]
    | found skipped block final rest =>
      rcases nextNode_of_found standing result with ⟨node, after, read, took⟩
      have shorter := length_lt_of_scanNode result
      simp only [read, outline_of_found result, took.visits_eq,
        ih final took.standing (by omega : rest.length < budget)]

variable {reader : Reader} {passed unread : Text} {delimiters : Delimiters}

theorem nextVisits_of_found
    {skipped rest : Text}
    {block : Block}
    {after : Delimiters}
    (standing : reader.At passed unread)
    (result : scanNode delimiters unread = .found skipped block after rest) :
    nextVisits (reader, delimiters) = block.visits after := by
  rcases nextNode_of_found standing result with ⟨node, left, read, took⟩
  simp only [nextVisits, read, took.visits_eq]

theorem nextVisits_of_finished
    (standing : reader.At passed unread)
    (result : scanNode delimiters unread = .finished) :
    nextVisits (reader, delimiters) = [] := by
  rcases nextNode_of_finished standing result with ⟨after, read, -⟩
  simp only [nextVisits, read]

theorem nextVisits_isPrefix (standing : reader.At passed unread) :
    nextVisits (reader, delimiters) <+: (outline delimiters unread).1 := by
  cases result : scanNode delimiters unread with
  | finished =>
    rw [nextVisits_of_finished standing result]
    exact List.nil_prefix
  | faulty before fault =>
    rcases nextNode_of_faulty standing result with ⟨after, read⟩
    simp only [nextVisits, read]
    exact List.nil_prefix
  | found skipped block after rest =>
    rw [nextVisits_of_found standing result, outline_of_found result]
    exact List.prefix_append _ _

end Reader

/--
The pair after the next block is one of its visits' pairs, or the one before it.
-/
theorem solid_of_visits
    {delimiters after : Delimiters}
    {unread skipped rest : Text}
    {block : Block}
    (result : scanNode delimiters unread = .found skipped block after rest)
    (solid : delimiters.Solid)
    (solids : ∀ visit ∈ (outline delimiters unread).1, visit.after.Solid) :
    after.Solid := by
  cases visits : block.visits after with
  | nil =>
    rw [delimiters_of_no_visits result visits]
    exact solid
  | cons visit others =>
    have member : visit ∈ block.visits after := by simp [visits]
    have same : visit.after = after := block.after_of_mem_visits member
    rw [← same]
    apply solids
    rw [outline_of_found result]
    exact List.mem_append_left _ member

theorem solid_pairsAtNext
    {delimiters : Delimiters}
    {unread : Text}
    (solid : delimiters.Solid)
    (solids : ∀ visit ∈ (outline delimiters unread).1, visit.after.Solid) :
    ∀ pair ∈ pairsAtNext unread delimiters, pair.Solid := by
  cases result : scanNode delimiters unread with
  | finished | faulty => simpa [pairsAtNext, result] using solid
  | found skipped block after rest =>
    simpa [pairsAtNext, result] using
      ⟨solid, solid_of_visits result solid solids⟩

/-- What a step in place does to the draft that the buffer holds. -/
def Draft.AdvancesInPlace
    (draft : Draft)
    (delimiters : Delimiters) : Text ⊕ Reader × Delimiters → Prop
  | .inl _ => scanNode delimiters draft.unread = .finished
  | .inr (reader, after) =>
    ∃ draft',
      reader.Holds draft' ∧ draft.Advances delimiters (.inr (draft', after))

theorem meets_expandNext
    (lambdas : Lambdas)
    (render : TemplateRenderer)
    (partials : Partials)
    {reader : Reader}
    {draft : Draft}
    {delimiters : Delimiters}
    (holds : reader.Holds draft)
    (solid : ∀ pair ∈ pairsAtNext draft.unread delimiters, pair.Solid) :
    Meets (fun _ => True) (fun next _ => draft.AdvancesInPlace delimiters next)
      (fun _ _ => True)
      (expandNext lambdas render partials (reader, delimiters)) := by
  intro world _
  have steps := Draft.stepsInPlace holds solid lambdas render partials world
  have moved :=
    Draft.meets_step lambdas render partials draft delimiters world True.intro
  generalize Draft.step lambdas render partials (draft, delimiters) world =
    outcome at steps moved
  rcases outcome with ⟨stop | text | ⟨draft', after⟩, left⟩
  · have stepped :
        expandNext lambdas render partials (reader, delimiters) world =
          (.error stop, left) :=
      steps
    rw [stepped]
    exact True.intro
  · have stepped :
        expandNext lambdas render partials (reader, delimiters) world =
          (.ok (.inl text), left) :=
      steps
    rw [stepped]
    exact moved
  · rcases steps with ⟨reader', stepped, held⟩
    rw [stepped]
    exact ⟨draft', held, moved⟩

/-- What the renderer that edits its buffer visits on its way. -/
def visited
    (lambdas : Lambdas)
    (fuel : Nat)
    (partials : Partials)
    (state : Reader × Delimiters)
    (world : World) : List Visit :=
  ((bufferMachine lambdas).heads fuel partials state world).flatMap
    fun head => Reader.nextVisits head.1

theorem visited_succ
    (lambdas : Lambdas)
    (fuel : Nat)
    (partials : Partials)
    (state : Reader × Delimiters)
    (world : World) :
    visited lambdas (fuel + 1) partials state world =
      Reader.nextVisits state ++
        match expandNext lambdas ((bufferMachine lambdas).render fuel) partials
            state world with
        | (.ok (.inr next), after) => visited lambdas fuel partials next after
        | _ => [] := by
  have step : (bufferMachine lambdas).step = expandNext lambdas := rfl
  simp only [visited, Machine.heads, List.flatMap_cons, step]
  rcases expandNext lambdas ((bufferMachine lambdas).render fuel) partials state
      world with ⟨_ | _ | _, _⟩ <;> rfl

/-- The rest of a run visits a first part of the outline of what is unread. -/
theorem visited_isPrefix_outline
    (lambdas : Lambdas)
    (fuel : Nat)
    (partials : Partials)
    {reader : Reader}
    {draft : Draft}
    {delimiters : Delimiters}
    (world : World)
    (holds : reader.Holds draft)
    (solid : delimiters.Solid)
    (solids :
      ∀ visit ∈ (outline delimiters draft.unread).1, visit.after.Solid) :
    visited lambdas fuel partials (reader, delimiters) world <+:
      (outline delimiters draft.unread).1 ∧
    ∀ text,
      ((bufferMachine lambdas).run fuel partials (reader, delimiters) world).1 =
        .ok text →
      visited lambdas fuel partials (reader, delimiters) world =
        (outline delimiters draft.unread).1 := by
  induction fuel generalizing reader draft delimiters world with
  | zero => exact ⟨List.nil_prefix, by rintro text ⟨⟩⟩
  | succ fuel ih =>
    have standing := holds.standing
    have step : (bufferMachine lambdas).step = expandNext lambdas := rfl
    have moved :=
      meets_expandNext lambdas ((bufferMachine lambdas).render fuel) partials
        holds (solid_pairsAtNext solid solids) world True.intro
    rw [visited_succ, Machine.run_apply, step]
    generalize expandNext lambdas ((bufferMachine lambdas).render fuel) partials
      (reader, delimiters) world = outcome at moved ⊢
    rcases outcome with ⟨stop | text | ⟨reader', final⟩, left⟩
    · refine ⟨?_, by rintro text ⟨⟩⟩
      rw [List.append_nil]
      exact Reader.nextVisits_isPrefix standing
    · simp [Reader.nextVisits_of_finished standing moved,
        outline_of_finished moved]
    · rcases moved with ⟨draft', held, advances⟩
      rcases advances.shortens with ⟨skipped, block, line, result, blank⟩
      have solidAfter := solid_of_visits result solid solids
      rw [Reader.nextVisits_of_found standing result]
      rw [outline_of_found result, outline_blank solidAfter blank] at solids ⊢
      have later := ih left held solidAfter fun visit member =>
        solids visit (List.mem_append_right _ member)
      refine ⟨(List.prefix_append_right_inj _).2 later.1, ?_⟩
      intro text ends
      exact congrArg _ (later.2 text ends)

/--
Whatever the lambdas, the data and the partials are, a run visits a first part
of what is visited on the template that nobody edits, and all of it when it
succeeds.
-/
theorem visited_isPrefix
    (lambdas : Lambdas)
    (fuel : Nat)
    (template : Text)
    (partials : Partials)
    (delimiters : Delimiters)
    (world : World)
    (solid : delimiters.Solid)
    (solids :
      ∀ visit ∈ Reader.visitsFrom (template.length + 1) (Reader.ofText template)
          delimiters,
        visit.after.Solid) :
    visited lambdas fuel partials (Reader.ofText template, delimiters) world <+:
      Reader.visitsFrom (template.length + 1) (Reader.ofText template)
        delimiters ∧
    ∀ text,
      (interpretWithin lambdas fuel template partials delimiters world).1 =
        .ok text →
      visited lambdas fuel partials (Reader.ofText template, delimiters) world =
        Reader.visitsFrom (template.length + 1) (Reader.ofText template)
          delimiters := by
  have untouched := Reader.visitsFrom_eq delimiters (Reader.at_ofText template)
    (Nat.lt_succ_self template.length)
  rw [untouched] at solids ⊢
  rw [interpretWithin_eq_render]
  exact visited_isPrefix_outline lambdas fuel partials world
    (Reader.holds_ofText template) solid solids

/--
Data that looks like tags, in a template that changes its delimiters within a
section.
-/
theorem visited_isPrefix_switch :
    let template := "<a>\n <#s>\n<=| |=> x\n |/s|\n |!c|\n|a|".toList
    let delimiters : Delimiters := ⟨['<'], ['>']⟩
    let world : World := ⟨⟨#[[("a", .string "|/s|<a>"), ("s", .bool true)]]⟩,
      .ofRoot (.map ⟨⟨0⟩, none⟩)⟩
    visited .none 20 [] (Reader.ofText template, delimiters) world <+:
      Reader.visitsFrom (template.length + 1) (Reader.ofText template)
        delimiters ∧
    ∀ text,
      (interpretWithin .none 20 template [] delimiters world).1 = .ok text →
      visited .none 20 [] (Reader.ofText template, delimiters) world =
        Reader.visitsFrom (template.length + 1) (Reader.ofText template)
          delimiters := by
  intro template delimiters world
  have solids :
      ∀ visit ∈ Reader.visitsFrom (template.length + 1) (Reader.ofText template)
          delimiters,
        visit.after.Solid := by
    decide +kernel
  exact visited_isPrefix .none 20 template [] delimiters world (by decide)
    solids

end Mustache
