import Mathlib.Data.List.Forall2
import Mustache.Proofs.Draft.Visits
import Mustache.Proofs.Reader.Faults

/-!
# Accessors and the tags that a run expands

Inspecting reads a template that nobody edits, and rendering reads the buffer
that it edits.  Both come upon the blocks of the template that read from the
context, in their order (`Reader.inspectRest_follows`, `faces_readingBlocks`):
inspecting upon all of them, and a run upon the first of them, or all of them
when it succeeds.  So the accessors of a template and the tags that a run
expands go together, one by one (`exists_accessors_facing`).
-/

namespace Mustache

open RenderM

variable {lambdas : Lambdas} {partials : Partials} {store : Store}

/-! ## Inspecting -/

namespace Accessor

/--
An accessor is one to a block: it keeps the tag that the block starts with, and
its body.
-/
structure IsFor (accessor : Accessor) (block : Block) : Prop where
  piece_eq : accessor.token.piece = block.head
  body_eq : accessor.body = block.body?
  dotted : accessor.token.kind = .implicit → accessor.token.name = ['.']

theorem exists_isFor
    {accessors : List Accessor}
    {blocks : List Block}
    (follow : List.Forall₂ IsFor accessors blocks) :
    ∀ accessor ∈ accessors, ∃ block, accessor.IsFor block :=
  ((List.forall₂_and_left _ _).1
    (follow.imp fun _ block isFor => ⟨⟨block, isFor⟩, isFor⟩)).1

/--
Accessors are made one after the other, each in the store that the one before
left.
-/
inductive Made
    (lambdas : Lambdas)
    (stack : ContextStack)
    (partials : Partials) : Store → List Accessor → Store → Prop
  | none {store : Store} : Made lambdas stack partials store [] store
  | next
      {accessor : Accessor}
      {rest : List Accessor}
      {store between after : Store}
      (located :
        locate lambdas stack partials accessor.token accessor.body store =
          ((accessor.owner, accessor.target), between))
      (later : Made lambdas stack partials between rest after) :
      Made lambdas stack partials store (accessor :: rest) after

/-- Accessors that leave the store as it is are all made in the same store. -/
theorem Made.located
    {stack : ContextStack}
    {accessors : List Accessor}
    {after : Store}
    (made : Made lambdas stack partials store accessors after)
    (keeps :
      ∀ accessor ∈ accessors,
        (locate lambdas stack partials accessor.token accessor.body store).2 =
          store) :
    after = store ∧
    ∀ accessor ∈ accessors,
      locate lambdas stack partials accessor.token accessor.body store =
        ((accessor.owner, accessor.target), store) := by
  induction made with
  | none => exact ⟨rfl, by simp⟩
  | next located later ih =>
    have stays := keeps _ List.mem_cons_self
    rw [located] at stays
    cases stays
    rcases ih fun accessor member =>
      keeps accessor (List.mem_cons_of_mem _ member) with ⟨same, others⟩
    exact ⟨same, List.forall_mem_cons.2 ⟨located, others⟩⟩

/-- What is made for the same tags from the same store is the same. -/
theorem Made.unique
    {stack : ContextStack}
    {accessors others : List Accessor}
    {after left : Store}
    (made : Made lambdas stack partials store accessors after)
    (madeToo : Made lambdas stack partials store others left)
    (tokens : accessors.map token = others.map token)
    (bodies : accessors.map body = others.map body) :
    accessors = others ∧ after = left := by
  induction made generalizing others with
  | none =>
    cases List.map_eq_nil_iff.1 tokens.symm
    cases madeToo
    exact ⟨rfl, rfl⟩
  | @next accessor rest store between after located later ih =>
    cases madeToo with
    | none => cases tokens
    | @next other others _ between' left located' later' =>
      rcases List.cons.inj tokens with ⟨sameToken, tokens⟩
      rcases List.cons.inj bodies with ⟨sameBody, bodies⟩
      rw [sameToken, sameBody, located'] at located
      rcases Prod.mk.inj located with ⟨sameEnds, rfl⟩
      rcases Prod.mk.inj sameEnds with ⟨sameOwner, sameTarget⟩
      rcases ih later' tokens bodies with ⟨rfl, rfl⟩
      cases accessor
      cases other
      cases sameToken
      cases sameBody
      cases sameOwner
      cases sameTarget
      exact ⟨rfl, rfl⟩

end Accessor

namespace Reader

/--
The nodes of a reader that reads on to the end of its buffer, which nobody
edits.
-/
def nodesFrom : Nat → Reader → Delimiters → List Node
  | 0, _, _ => []
  | budget + 1, reader, delimiters =>
    match reader.nextNode delimiters with
    | (.ok (some node), after, reader) => node :: nodesFrom budget reader after
    | _ => []

/-- The tags at the top level that read from the context. -/
def readingsFrom
    (budget : Nat)
    (reader : Reader)
    (delimiters : Delimiters) : List Token :=
  ((nodesFrom budget reader delimiters).map Node.head).filter
    (·.kind.readsContext)

variable
    {reader after : Reader}
    {passed unread skipped rest : Text}
    {block : Block}
    {node : Node}
    {delimiters final : Delimiters}

theorem NodeTook.kind_eq
    (took : NodeTook reader after passed skipped rest block node) :
    node.head.kind = block.head.kind :=
  congrArg Piece.kind took.head_eq

theorem NodeTook.dotted
    (took : NodeTook reader after passed skipped rest block node)
    (result : scanNode delimiters unread = .found skipped block final rest)
    (dotted : node.head.kind = .implicit) :
    node.head.name = ['.'] := by
  have isName : node.head.name = block.head.name :=
    congrArg Piece.name took.head_eq
  rw [took.kind_eq] at dotted
  rw [isName]
  cases block with
  | leaf piece => exact name_of_scan_implicit (scanNode_eq_leaf result).1 dotted
  | paired opener body closer =>
    have opens := (scanNode_eq_paired result).1
    rw [show opener.kind = .implicit from dotted] at opens
    cases opens

/-- The body of a section is the text between its tags. -/
theorem NodeTook.body_eq
    (standing : reader.At passed unread)
    (took : NodeTook reader after passed skipped rest block node) :
    node.body? after = block.body? := by
  cases took with
  | leaf took => rfl
  | @paired opener closer body left openerToken closerToken between took
      closed =>
    have split :
        after.buffer.text =
          (passed ++ (skipped ++ opener.source)) ++
            (body ++ (closer.source ++ rest)) := by
      rw [closed.standing.text_eq]
      simp
    have start :=
      Buffer.offset_of_livePosition? (closed.live_opener_stop standing took)
    have stop := Buffer.offset_of_livePosition? closed.live_start
    exact congrArg some (Buffer.substring_of_text split start stop)

/-- One step of an inspection at a tag that reads from the context. -/
theorem inspectRest_of_reads
    {stack : ContextStack}
    {budget : Nat}
    (read : reader.nextNode delimiters = (.ok (some node), final, after))
    (reads : node.head.kind.readsContext = true)
    {owner : Value}
    {target : AccessTarget}
    {left : Store}
    (located :
      Accessor.locate lambdas stack partials node.head (node.body? after)
          store =
        ((owner, target), left))
    (accessors : Array Accessor) :
    inspectRest lambdas stack partials (budget + 1) reader delimiters accessors
        store =
      inspectRest lambdas stack partials budget after final
        (accessors.push ⟨node.head, owner, target, node.body? after⟩) left := by
  rw [inspectRest]
  simp only [read, if_pos reads]
  exact congrArg
    (fun found : (Value × AccessTarget) × Store =>
      inspectRest lambdas stack partials budget after final
        (accessors.push ⟨node.head, found.1.1, found.1.2, node.body? after⟩)
        found.2)
    located

/--
Inspecting a template without a fault makes an accessor for each block that
reads from the context, one after the other.
-/
theorem inspectRest_follows
    (lambdas : Lambdas)
    (stack : ContextStack)
    (partials : Partials)
    (standing : reader.At passed unread)
    (sound : (survey delimiters [] unread).2 = none)
    {budget : Nat}
    (enough : unread.length < budget)
    (accessors : Array Accessor)
    (store : Store) :
    ∃ made left,
      inspectRest lambdas stack partials budget reader delimiters accessors
          store =
        (.ok (accessors.toList ++ made), left) ∧
      Accessor.Made lambdas stack partials store made left ∧
      made.map Accessor.token = readingsFrom budget reader delimiters ∧
      List.Forall₂ Accessor.IsFor made (readingBlocks delimiters unread) := by
  induction budget generalizing reader passed unread delimiters accessors store
    with
  | zero => cases enough
  | succ budget ih =>
    unfold readingsFrom at ih ⊢
    cases result : scanNode delimiters unread with
    | finished =>
      rcases nextNode_of_finished standing result with ⟨after, read, -⟩
      refine ⟨[], store, ?_, .none, ?_, ?_⟩
      · simp only [inspectRest, read, List.append_nil]
        rfl
      · simp only [nodesFrom, read]
        rfl
      · rw [readingBlocks_of_finished result]
        exact .nil
    | faulty before fault =>
      rw [survey_of_node_faulty result] at sound
      cases sound
    | found skipped block final rest =>
      rcases nextNode_of_found standing result with ⟨node, after, read, took⟩
      rcases survey_of_node_found result with ⟨tags, -, surveyed⟩
      have shorter := length_lt_of_scanNode result
      rw [surveyed] at sound
      have enough : rest.length < budget := by omega
      rw [nodesFrom, readingBlocks_of_found result]
      simp only [read, List.map_cons]
      cases reads : node.head.kind.readsContext with
      | false =>
        rcases ih took.standing sound enough accessors store with
          ⟨accessorsMade, left, inspected, made, tokens, follow⟩
        refine ⟨accessorsMade, left, ?_, made, by simpa [reads] using tokens,
          ?_⟩
        · rw [← inspected, inspectRest]
          simp [read, reads]
        · simpa [← took.kind_eq, reads] using follow
      | true =>
        rcases located :
            Accessor.locate lambdas stack partials node.head (node.body? after)
              store with ⟨⟨owner, target⟩, between⟩
        rcases ih took.standing sound enough
            (accessors.push ⟨node.head, owner, target, node.body? after⟩)
            between with ⟨others, left, inspected, made, tokens, follow⟩
        refine ⟨⟨node.head, owner, target, node.body? after⟩ :: others, left,
          ?_, .next located made, ?_, ?_⟩
        · rw [inspectRest_of_reads read reads located, inspected]
          simp
        · simp [reads, tokens]
        · have isReading :
              [block].filter (·.head.kind.readsContext) = [block] := by
            simp [← took.kind_eq, reads]
          rw [isReading]
          exact .cons ⟨took.head_eq, took.body_eq standing, took.dotted result⟩
            follow

/--
Accessors for the tags of a template, each made in the store that the one before
left, are those that inspecting it makes.
-/
theorem inspect_of_made
    {template : Text}
    {data : Value}
    {accessors : List Accessor}
    {left : Store}
    (sound : (survey delimiters [] template).2 = none)
    (made : Accessor.Made lambdas (.ofRoot data) partials store accessors left)
    (tokens :
      accessors.map Accessor.token =
        readingsFrom (template.length + 1) (ofText template) delimiters)
    (bodies :
      accessors.map Accessor.body =
        (readingBlocks delimiters template).map Block.body?) :
    inspect lambdas template data partials delimiters store =
      (.ok accessors, left) := by
  rcases inspectRest_follows lambdas (.ofRoot data) partials
      (at_ofText template) sound (Nat.lt_succ_self _) #[] store with
    ⟨others, after, inspected, madeToo, sameTokens, follow⟩
  have sameBodies :
      others.map Accessor.body =
        (readingBlocks delimiters template).map Block.body? := by
    rw [← List.forall₂_eq_eq_eq, List.forall₂_map_left_iff,
      List.forall₂_map_right_iff]
    exact follow.imp fun _ _ isFor => isFor.body_eq
  rcases made.unique madeToo (tokens.trans sameTokens.symm)
      (bodies.trans sameBodies.symm) with
    ⟨rfl, rfl⟩
  exact inspected

/-! ## Rendering -/

/-- The tag at the next node, if it reads from the context. -/
def nextReading? (state : Reader × Delimiters) : Option Token :=
  match state.1.nextNode state.2 with
  | (.ok (some node), _, _) =>
    if node.head.kind.readsContext then some node.head else none
  | _ => none

/-- The next node of a reader that holds a draft is a given block. -/
inductive Faces (state : Reader × Delimiters) (block : Block) : Prop
  | intro
      {draft : Draft}
      {skipped rest : Text}
      {after : Delimiters}
      {node : Node}
      {read : Reader}
      (holds : state.1.Holds draft)
      (result : scanNode state.2 draft.unread = .found skipped block after rest)
      (isNext : state.1.nextNode state.2 = (.ok (some node), after, read))
      (took : NodeTook state.1 read draft.written skipped rest block node)
      (inked : block.Inked)

variable {draft : Draft}

/-- The tag at the next node is the one that the block starts with. -/
theorem Faces.piece_eq
    {state : Reader × Delimiters}
    (faces : Faces state block)
    {token : Token}
    (isToken : nextReading? state = some token) :
    token.piece = block.head := by
  rcases faces with ⟨-, -, isNext, took, -⟩
  simp only [nextReading?, isNext] at isToken
  split at isToken
  · cases isToken
    exact took.head_eq
  · cases isToken

/--
A reader that has a block before it comes upon the block if it reads from the
context.
-/
theorem faces_of_found
    (holds : reader.Holds draft)
    (result :
      scanNode delimiters draft.unread = .found skipped block final rest)
    (inked : block.Inked)
    (world : World) :
    List.Forall₂ (fun head block => Faces head.1 block)
      ([((reader, delimiters), world)].filter fun head =>
        (nextReading? head.1).isSome)
      ([block].filter (·.head.kind.readsContext)) := by
  rcases nextNode_of_found holds.standing result with ⟨node, read, isNext, took⟩
  have faces : Faces (reader, delimiters) block :=
    .intro holds result isNext took inked
  have isReading :
      (nextReading? (reader, delimiters)).isSome =
        block.head.kind.readsContext := by
    simp only [nextReading?, isNext, took.kind_eq]
    cases block.head.kind.readsContext <;> rfl
  cases reads : block.head.kind.readsContext <;> simp [isReading, reads, faces]

/-- Where there is no block, no node is read. -/
theorem nextNode_of_not_found
    (standing : reader.At passed unread)
    (missing :
      ∀ skipped block final rest,
        scanNode delimiters unread ≠ .found skipped block final rest) :
    ∃ result final after,
      reader.nextNode delimiters = (result, final, after) ∧
      ∀ node, result ≠ .ok (some node) := by
  rcases read : reader.nextNode delimiters with ⟨result, final, after⟩
  refine ⟨result, final, after, rfl, ?_⟩
  rintro node rfl
  rcases found_of_nextNode standing read with ⟨skipped, block, rest, found, -⟩
  exact missing skipped block final rest found

end Reader

/-- The moments of a run at which the next tag reads from the context. -/
def readingHeads
    (lambdas : Lambdas)
    (fuel : Nat)
    (partials : Partials)
    (state : Reader × Delimiters)
    (world : World) : List ((Reader × Delimiters) × World) :=
  ((bufferMachine lambdas).heads fuel partials state world).filter
    fun head => (Reader.nextReading? head.1).isSome

theorem readingHeads_succ
    (lambdas : Lambdas)
    (fuel : Nat)
    (partials : Partials)
    (state : Reader × Delimiters)
    (world : World) :
    readingHeads lambdas (fuel + 1) partials state world =
      [(state, world)].filter
        (fun head => (Reader.nextReading? head.1).isSome) ++
        match expandNext lambdas ((bufferMachine lambdas).render fuel) partials
            state world with
        | (.ok (.inr next), after) =>
          readingHeads lambdas fuel partials next after
        | _ => [] := by
  have step : (bufferMachine lambdas).step = expandNext lambdas := rfl
  simp only [readingHeads, Machine.heads, step]
  rcases expandNext lambdas ((bufferMachine lambdas).render fuel) partials state
      world with ⟨_ | _ | next, after⟩
  · simp
  · simp
  · rw [← List.filter_append]
    rfl

/-- Where there is no block, a run comes upon none. -/
theorem readingHeads_of_not_found
    {reader : Reader}
    {passed unread : Text}
    {delimiters : Delimiters}
    (standing : reader.At passed unread)
    (missing :
      ∀ skipped block final rest,
        scanNode delimiters unread ≠ .found skipped block final rest)
    (lambdas : Lambdas)
    (fuel : Nat)
    (partials : Partials)
    (world : World) :
    readingHeads lambdas fuel partials (reader, delimiters) world = [] := by
  cases fuel with
  | zero => rfl
  | succ fuel =>
    rcases Reader.nextNode_of_not_found standing missing with
      ⟨result, final, after, read, nothing⟩
    rw [readingHeads_succ]
    rcases result with error | _ | node
    · simp only [List.filter_cons, Reader.nextReading?, expandNext, read]
      rfl
    · simp only [List.filter_cons, Reader.nextReading?, expandNext, read]
      rfl
    · exact absurd rfl (nothing node)

/-- What every step preserves of the world holds whenever such a tag is next. -/
theorem readingHeads_preserve
    {holds : World → Prop}
    (preserves :
      ∀ fuel state world,
        holds world →
        holds
          ((bufferMachine lambdas).step ((bufferMachine lambdas).render fuel)
            partials state world).2)
    (fuel : Nat)
    (state : Reader × Delimiters)
    {world : World}
    (isWorld : holds world) :
    ∀ head ∈ readingHeads lambdas fuel partials state world, holds head.2 :=
  fun head member =>
    Machine.heads_preserve preserves fuel state isWorld head
      (List.mem_filter.1 member).1

/--
The rest of a run comes upon the first of the blocks in what is unread that read
from the context, and upon all of them when it succeeds.
-/
theorem faces_readingBlocks
    (lambdas : Lambdas)
    (fuel : Nat)
    (partials : Partials)
    {reader : Reader}
    {draft : Draft}
    {delimiters : Delimiters}
    (world : World)
    (holds : reader.Holds draft)
    (solid : delimiters.Solid)
    (solids :
      ∀ visit ∈ (outline delimiters draft.unread).1, visit.after.Solid) :
    ∃ met,
      met <+: readingBlocks delimiters draft.unread ∧
      (∀ text,
        ((bufferMachine lambdas).run fuel partials (reader, delimiters)
            world).1 =
          .ok text →
        met = readingBlocks delimiters draft.unread) ∧
      List.Forall₂ (fun head block => Reader.Faces head.1 block)
        (readingHeads lambdas fuel partials (reader, delimiters) world)
        met := by
  induction fuel generalizing reader draft delimiters world with
  | zero => exact ⟨[], List.nil_prefix, by rintro text ⟨⟩, .nil⟩
  | succ fuel ih =>
    cases result : scanNode delimiters draft.unread with
    | found skipped block after rest =>
      have step : (bufferMachine lambdas).step = expandNext lambdas := rfl
      have moved :=
        meets_expandNext lambdas ((bufferMachine lambdas).render fuel) partials
          holds (solid_pairsAtNext solid solids) world True.intro
      have solidAfter := solid_of_visits result solid solids
      have first :=
        Reader.faces_of_found holds result
          (inked_of_solid result solid solidAfter) world
      rw [readingHeads_succ, Machine.run_apply, step,
        readingBlocks_of_found result]
      generalize expandNext lambdas ((bufferMachine lambdas).render fuel)
          partials (reader, delimiters) world = outcome at moved ⊢
      rcases outcome with ⟨stop | text | ⟨reader', final⟩, left⟩
      · refine ⟨_, List.prefix_append _ _, by rintro text ⟨⟩, ?_⟩
        rw [List.append_nil]
        exact first
      · have finished : scanNode delimiters draft.unread = .finished := moved
        cases result.symm.trans finished
      · rcases moved with ⟨draft', held, advances⟩
        rcases advances.shortens with ⟨skipped', block', line, same, blank⟩
        cases result.symm.trans same
        rw [outline_of_found result, outline_blank solidAfter blank] at solids
        rcases ih left held solidAfter fun visit member =>
          solids visit (List.mem_append_right _ member) with
            ⟨met, isPrefix, whole, faces⟩
        rw [readingBlocks_blank solidAfter blank]
        refine ⟨_ ++ met, (List.prefix_append_right_inj _).2 isPrefix, ?_,
          List.rel_append first faces⟩
        intro text ends
        exact congrArg _ (whole text ends)
    | finished | faulty =>
      have missing (skipped : Text) (block : Block) (after : Delimiters)
          (rest : Text) :
          scanNode delimiters draft.unread ≠
            .found skipped block after rest := by
        rw [result]
        exact NodeScan.noConfusion
      have nothing : readingBlocks delimiters draft.unread = [] := by
        first
        | exact readingBlocks_of_finished result
        | exact readingBlocks_of_faulty result
      rw [nothing, readingHeads_of_not_found holds.standing missing]
      exact ⟨[], List.nil_prefix, fun _ _ => rfl, .nil⟩

/--
What goes with the first elements of a list goes with those of another that goes
with it.
-/
theorem exists_prefix_of_forall₂
    {α β γ : Type}
    {first : α → γ → Prop}
    {second : β → γ → Prop}
    {xs : List α}
    {ys : List β}
    {zs met : List γ}
    (all : List.Forall₂ second ys zs)
    (isPrefix : met <+: zs)
    (some : List.Forall₂ first xs met) :
    ∃ shown,
      shown <+: ys ∧
      (met = zs → shown = ys) ∧
      List.Forall₂ (fun x y => ∃ z, first x z ∧ second y z) xs shown := by
  induction some generalizing ys zs with
  | nil =>
    refine ⟨[], List.nil_prefix, ?_, .nil⟩
    rintro rfl
    cases all
    rfl
  | @cons x z xs met related _ ih =>
    cases all with
    | nil => cases List.prefix_nil.1 isPrefix
    | cons related' others =>
      rcases List.cons_prefix_cons.1 isPrefix with ⟨rfl, further⟩
      rcases ih others further with ⟨shown, isShown, whole, go⟩
      refine ⟨_ :: shown, List.cons_prefix_cons.2 ⟨rfl, isShown⟩, ?_,
        .cons ⟨z, related, related'⟩ go⟩
      intro same
      rw [whole (List.tail_eq_of_cons_eq same)]

/--
The accessors of a template that passes the check go together with the tags that
a run in place expands: with the first of them, and with all of them when the
run succeeds.  The run comes upon the very block that the accessor is one to.
-/
theorem exists_accessors_facing
    {template : Text}
    {delimiters : Delimiters}
    (valid : validate template delimiters = .ok ())
    (solid : delimiters.Solid)
    (solids :
      ∀ visit ∈ Reader.visitsFrom (template.length + 1) (Reader.ofText template)
          delimiters,
        visit.after.Solid)
    (lambdas : Lambdas)
    (data : Value)
    (partials : Partials)
    (store : Store)
    (fuel : Nat) :
    ∃ accessors after,
      inspect lambdas template data partials delimiters store =
        (.ok accessors, after) ∧
      accessors.map Accessor.token =
        Reader.readingsFrom (template.length + 1) (Reader.ofText template)
          delimiters ∧
      Accessor.Made lambdas (.ofRoot data) partials store accessors after ∧
      (∀ accessor ∈ accessors, ∃ block, accessor.IsFor block) ∧
      ∃ shown,
        shown <+: accessors ∧
        (∀ text,
          (interpretWithin lambdas fuel template partials delimiters
              ⟨store, .ofRoot data⟩).1 =
            .ok text →
          shown = accessors) ∧
        List.Forall₂
          (fun head accessor =>
            ∃ block, Reader.Faces head.1 block ∧ accessor.IsFor block)
          (readingHeads lambdas fuel partials
            (Reader.ofText template, delimiters) ⟨store, .ofRoot data⟩)
          shown := by
  have sound : (survey delimiters [] template).2 = none := by
    have reports := validate_reports template delimiters
    rwa [valid] at reports
  rcases Reader.inspectRest_follows lambdas (.ofRoot data) partials
      (Reader.at_ofText template) sound (Nat.lt_succ_self template.length) #[]
      store with ⟨accessors, after, inspected, made, tokens, follow⟩
  have untouched := Reader.visitsFrom_eq delimiters (Reader.at_ofText template)
    (Nat.lt_succ_self template.length)
  rw [untouched] at solids
  rcases faces_readingBlocks lambdas fuel partials ⟨store, .ofRoot data⟩
      (Reader.holds_ofText template) solid solids with
    ⟨met, isPrefix, whole, faces⟩
  rcases exists_prefix_of_forall₂ follow isPrefix faces with
    ⟨shown, isShown, all, together⟩
  have each := Accessor.exists_isFor follow
  refine ⟨accessors, after, inspected, tokens, made, each, shown, isShown, ?_,
    together⟩
  intro text ends
  rw [interpretWithin_eq_render] at ends
  exact all (whole text ends)

end Mustache
