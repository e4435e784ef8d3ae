import Mustache.Proofs.Draft.Simulation
import Mustache.Proofs.Render.Stack

/-!
# Rendering in two worlds that go together

Two worlds may differ in a way that a template can tell only where it looks: by
a frame of the stack, or by what a table has under a key.  Rendering in both
comes to the same up to such a look (`RenderM.AgreeAcross`).

What a node looks at, it looks at before any template is rendered for it: an
interpolation when its name is resolved and shown (`interpolated`), a section
when its items are found (`sectionItems`).  Worlds in which it looks at the same
(`Node.ReadAlike`) agree on the node, as long as pushing frames and popping them
keeps the worlds together (`Carries`).  So a rendering that gives up before all
other nodes (`watching`) goes along with the one in the other world
(`agreeAcross_watching`).
-/

namespace Mustache

namespace RenderM

variable {α β : Type} {worlds : World → World → Prop} {excused : Stop → Prop}

/--
Two computations have ended alike, in worlds that go together, or the first one
has ended with an excused stop.
-/
def EndAlike
    (worlds : World → World → Prop)
    (excused : Stop → Prop)
    (ended ended' : Except Stop α × World) : Prop :=
  (∃ stop, ended.1 = .error stop ∧ excused stop) ∨
  ended.1 = ended'.1 ∧ worlds ended.2 ended'.2

/--
In worlds that go together the computations end alike, and again in worlds that
go together, or the first one ends with an excused stop.
-/
def AgreeAcross
    (worlds : World → World → Prop)
    (excused : Stop → Prop)
    (first second : RenderM α) : Prop :=
  ∀ world world',
    worlds world world' →
    (∃ stop, (first world).1 = .error stop ∧ excused stop) ∨
      (first world).1 = (second world').1 ∧
        worlds (first world).2 (second world').2

theorem AgreeAcross.pure (answer : α) :
    AgreeAcross worlds excused (pure answer) (pure answer) :=
  fun _ _ together => .inr ⟨rfl, together⟩

theorem AgreeAcross.throw (stop : Stop) :
    AgreeAcross worlds excused (throw stop : RenderM α) (throw stop) :=
  fun _ _ together => .inr ⟨rfl, together⟩

theorem EndAlike.bind
    {first second : RenderM α}
    {next next' : α → RenderM β}
    {world world' : World}
    (alike : EndAlike worlds excused (first world) (second world'))
    (onward :
      ∀ answer after after',
        first world = (.ok answer, after) → worlds after after' →
        EndAlike worlds excused (next answer after) (next' answer after')) :
    EndAlike worlds excused ((first >>= next) world)
      ((second >>= next') world') := by
  rw [run_bind, run_bind]
  generalize first world = outcome at alike onward ⊢
  generalize second world' = outcome' at alike ⊢
  rcases outcome with ⟨stop | answer, after⟩
  · rcases alike with ⟨cause, stopped, isExcused⟩ | ⟨same, left⟩
    · cases stopped
      exact .inl ⟨stop, rfl, isExcused⟩
    · rcases outcome' with ⟨_, after'⟩
      cases same
      exact .inr ⟨rfl, left⟩
  · rcases alike with ⟨cause, stopped, -⟩ | ⟨same, left⟩
    · cases stopped
    · rcases outcome' with ⟨_, after'⟩
      cases same
      exact onward answer after after' rfl left

theorem AgreeAcross.bind
    {first second : RenderM α}
    {next next' : α → RenderM β}
    (agree : AgreeAcross worlds excused first second)
    (onward :
      ∀ answer, AgreeAcross worlds excused (next answer) (next' answer)) :
    AgreeAcross worlds excused (first >>= next) (second >>= next') :=
  fun world world' together =>
    EndAlike.bind (agree world world' together) fun answer after after' _ =>
      onward answer after after'

theorem AgreeAcross.map
    {first second : RenderM α}
    (agree : AgreeAcross worlds excused first second)
    (change : α → β) :
    AgreeAcross worlds excused (change <$> first) (change <$> second) := by
  rw [map_eq_pure_bind, map_eq_pure_bind]
  exact agree.bind fun _ => .pure _

theorem AgreeAcross.mapM
    {γ : Type}
    {first second : γ → RenderM α}
    {items : List γ}
    (agree :
      ∀ item ∈ items, AgreeAcross worlds excused (first item) (second item)) :
    AgreeAcross worlds excused (items.mapM first) (items.mapM second) := by
  induction items with
  | nil => exact .pure _
  | cons item items ih =>
    rcases List.forall_mem_cons.1 agree with ⟨head, others⟩
    rw [List.mapM_cons, List.mapM_cons]
    exact head.bind fun _ => (ih others).bind fun _ => .pure _

theorem agreeAcross_ofEdit (edited : Option α) :
    AgreeAcross worlds excused (ofEdit edited) (ofEdit edited) := by
  cases edited with
  | none => exact .throw _
  | some => exact .pure _

/-- In worlds that are the same, ending alike is agreeing. -/
theorem agreeAcross_eq_iff {first second : RenderM α} :
    AgreeAcross Eq excused first second ↔ Agree excused Eq first second := by
  have outcomes (ended ended' : Except Stop α) :
      SameOutcome Eq ended ended' ↔ ended = ended' := by
    cases ended <;> cases ended' <;> simp [SameOutcome]
  constructor
  · intro agree world
    simpa only [outcomes] using agree world world rfl
  · rintro agree world _ rfl
    simpa only [outcomes] using agree world

/-- An edit does not touch the world. -/
theorem EndAlike.ofEdit_bind
    {edited : Option α}
    {next next' : α → RenderM β}
    {world world' : World}
    (together : worlds world world')
    (onward :
      ∀ answer,
        edited = some answer →
        EndAlike worlds excused (next answer world) (next' answer world')) :
    EndAlike worlds excused ((ofEdit edited >>= next) world)
      ((ofEdit edited >>= next') world') := by
  cases edited with
  | none => exact .inr ⟨rfl, together⟩
  | some answer => exact onward answer rfl

end RenderM

open RenderM

/-! ## What a node looks at -/

/-- What a name stands for, converted. -/
def namedValue
    (lambdas : Lambdas)
    (name : Text)
    (body : Option Text) : RenderM (Option Value) := do
  match ← resolve lambdas name body with
  | none => pure none
  | some found => some <$> ofEffect (found.convert lambdas)

/--
What an interpolation stands for, given the value of its name: a text or a
template.
-/
def madeText (lambdas : Lambdas) : Option Value → RenderM (Text ⊕ Text)
  | none => pure (.inl [])
  | some (.lambda lambda) => do
    .inr <$> textOf (← ofEffect (lambda.call lambdas none))
  | some value => .inl <$> textOf value

/--
What a section is rendered for, given the value of its name: its items, or a
template.
-/
def madeItems
    (lambdas : Lambdas)
    (kind : TokenKind)
    (body : Text)
    (value : Option Value) : RenderM (List Value ⊕ Text) :=
  if kind = .invertedOpener then
    pure (.inl (if hidesInverted value then [] else [.bool true]))
  else
    match value with
    | none => pure (.inl [])
    | some (.lambda lambda) => do
      match ← ofEffect (lambda.call lambdas (some (String.ofList body))) with
      | .string template => pure (.inr template.toList)
      | result => pure (.inl (itemsOf result))
    | some value => pure (.inl (itemsOf value))

/-- What an interpolation looks at. -/
def interpolated (lambdas : Lambdas) (name : Text) : RenderM (Text ⊕ Text) :=
  namedValue lambdas name none >>= madeText lambdas

/-- What a section looks at before its body is rendered. -/
def sectionItems
    (lambdas : Lambdas)
    (kind : TokenKind)
    (name body : Text) : RenderM (List Value ⊕ Text) :=
  namedValue lambdas name (some body) >>= madeItems lambdas kind body

/--
What a section is rendered from once the lines of its tags are trimmed: the
reader that is left, the body, and whether the body starts a line.
-/
def Reader.sectionBody?
    (reader : Reader)
    (opener closer : Token) : Option (Reader × Text × Bool) := do
  let (_, reader) ← reader.trimLine? closer
  let (indentation, reader) ← reader.trimLine? opener
  pure
    (reader, reader.buffer.substring (.mark opener.stop) (.mark closer.start),
      indentation.isSome)

variable {lambdas : Lambdas}

theorem interpolate_eq_interpolated
    (lambdas : Lambdas)
    (render : TemplateRenderer)
    (name : Text) :
    interpolate lambdas render name =
      interpolated lambdas name >>= fun
        | .inl text => pure text
        | .inr template => render template [] .standard := by
  rw [interpolate, interpolated, namedValue, bind_assoc, bind_assoc]
  congr 1
  funext found
  cases found with
  | none => simp [madeText]
  | some found =>
    simp only [map_eq_pure_bind, bind_assoc, pure_bind]
    congr 1
    funext value
    cases value <;> simp [madeText]

theorem expandBody_eq_sectionItems
    (lambdas : Lambdas)
    (render : TemplateRenderer)
    (partials : Partials)
    (delimiters : Delimiters)
    (kind : TokenKind)
    (name body : Text)
    (startsLine : Bool) :
    expandBody lambdas render partials delimiters kind name body startsLine =
      sectionItems lambdas kind name body >>= fun
        | .inl items =>
          renderItems lambdas render partials delimiters body startsLine items
        | .inr template => render template partials delimiters := by
  show
    sectionValue lambdas name body >>= _ =
      (sectionValue lambdas name body >>= _) >>= _
  rw [bind_assoc]
  congr 1
  funext value
  unfold expandFor madeItems
  split
  · rw [pure_bind]
  · rcases value with _ | value
    · rw [pure_bind]
    · cases value with
      | lambda lambda =>
        simp only [bind_assoc]
        congr 1
        funext result
        cases result <;> simp
      | _ => simp

theorem expandPaired_eq_sectionBody
    (lambdas : Lambdas)
    (render : TemplateRenderer)
    (partials : Partials)
    (delimiters : Delimiters)
    (reader : Reader)
    (opener closer : Token) :
    expandPaired lambdas render partials delimiters reader opener closer =
      ofEdit (reader.sectionBody? opener closer) >>=
        fun (trimmed, body, startsLine) =>
          expandBody lambdas render partials delimiters opener.kind opener.name
              body startsLine >>= fun text =>
            ofEdit (trimmed.replace? opener.start closer.stop text) := by
  unfold expandPaired Reader.sectionBody?
  cases reader.trimLine? closer with
  | none => rfl
  | some between =>
    rcases between with ⟨_, between⟩
    show ofEdit (between.trimLine? opener) >>= _ = _
    cases opened : between.trimLine? opener with
    | none => simp [opened, ofEdit]
    | some trimmed => simp [opened, ofEdit]

/-! ## Nodes in two worlds -/

/--
In two worlds a node looks at the same: what its name shows if it is an
interpolation, and if it is a section, the items that its body is rendered for,
which are of a usable kind.
-/
def Node.ReadAlike
    (lambdas : Lambdas)
    (worlds : World → World → Prop)
    (excused : Stop → Prop)
    (usable : Value → Prop)
    (reader : Reader)
    (world world' : World) : Node → Prop
  | .leaf token =>
    token.kind = .interpolation ∨
      token.kind = .unescaped ∨
      token.kind = .implicit →
    EndAlike worlds excused (interpolated lambdas token.name world)
      (interpolated lambdas token.name world')
  | .paired opener closer =>
    ∀ trimmed body startsLine,
      reader.sectionBody? opener closer = some (trimmed, body, startsLine) →
      EndAlike worlds excused
          (sectionItems lambdas opener.kind opener.name body world)
          (sectionItems lambdas opener.kind opener.name body world') ∧
        ∀ items,
          (sectionItems lambdas opener.kind opener.name body world).1 =
            .ok (.inl items) →
          ∀ item ∈ items, usable item

/--
Worlds that go together, with the frames that were pushed on both stacks, do so
after a frame is pushed or popped, and have the same frames for usable items.
-/
structure Carries
    (lambdas : Lambdas)
    (worlds : List Value → World → World → Prop)
    (excused : Stop → Prop)
    (usable : Value → Prop) : Prop where
  push : ∀ {inner : List Value} {world world' : World} (frame : Value),
    worlds inner world world' →
      worlds (frame :: inner) { world with stack := world.stack.push frame }
        { world' with stack := world'.stack.push frame }
  pop : ∀ {frame : Value} {inner : List Value} {world world' : World},
    worlds (frame :: inner) world world' →
      worlds inner { world with stack := world.stack.pop }
        { world' with stack := world'.stack.pop }
  frames :
    ∀ {inner : List Value} {item : Value},
      usable item →
      AgreeAcross (worlds inner) excused (framesOf lambdas item)
        (framesOf lambdas item)

section

variable
    {worlds : List Value → World → World → Prop}
    {excused : Stop → Prop}
    {usable : Value → Prop}
    {inner : List Value}
    {world world' : World}

theorem Carries.pushAll
    (carries : Carries lambdas worlds excused usable)
    (frames : List Value)
    (together : worlds inner world world') :
    worlds (frames.reverse ++ inner)
      { world with stack := frames.foldl ContextStack.push world.stack }
      { world' with stack := frames.foldl ContextStack.push world'.stack } := by
  induction frames generalizing inner world world' with
  | nil => exact together
  | cons frame frames ih =>
    rw [List.reverse_cons, List.append_assoc]
    exact ih (carries.push frame together)

theorem Carries.popAll
    (carries : Carries lambdas worlds excused usable)
    {frames : List Value}
    (together : worlds (frames.reverse ++ inner) world world') :
    worlds inner
      { world with
        stack := frames.foldl (fun stack _ => stack.pop) world.stack }
      { world' with
        stack := frames.foldl (fun stack _ => stack.pop) world'.stack } := by
  induction frames generalizing inner world world' with
  | nil => exact together
  | cons frame frames ih =>
    rw [List.reverse_cons, List.append_assoc] at together
    have popped := carries.pop (ih together)
    simp only [List.foldl_cons, ContextStack.foldl_pop_pop]
    exact popped

/-- More frames on both stacks. -/
theorem agreeAcross_withFrames
    {α : Type}
    {first second : RenderM α}
    (carries : Carries lambdas worlds excused usable)
    (frames : List Value)
    (agree :
      AgreeAcross (worlds (frames.reverse ++ inner)) excused first second) :
    AgreeAcross (worlds inner) excused (withFrames frames first)
      (withFrames frames second) := by
  intro world world' together
  rcases agree _ _ (carries.pushAll frames together) with stopped | ⟨same, left⟩
  · exact .inl stopped
  · exact .inr ⟨same, carries.popAll left⟩

variable
    {first second : TemplateRenderer}
    {partials : Partials}
    {delimiters : Delimiters}
    (renderers :
      ∀ inner template partials delimiters,
        AgreeAcross (worlds inner) excused (first template partials delimiters)
          (second template partials delimiters))
include renderers

theorem endAlike_interpolate
    {name : Text}
    (shown :
      EndAlike (worlds inner) excused (interpolated lambdas name world)
        (interpolated lambdas name world')) :
    EndAlike (worlds inner) excused (interpolate lambdas first name world)
      (interpolate lambdas second name world') := by
  rw [interpolate_eq_interpolated, interpolate_eq_interpolated]
  apply shown.bind
  rintro (text | template) after after' - left
  · exact .inr ⟨rfl, left⟩
  · exact renderers _ _ _ _ _ _ left

theorem agreeAcross_includePartial (name indentation : Text) :
    AgreeAcross (worlds inner) excused
      (includePartial first partials name indentation)
      (includePartial second partials name indentation) := by
  unfold includePartial
  split
  · exact .pure _
  · split
    · exact .pure _
    · exact renderers _ _ _ _

theorem agreeAcross_renderItems
    (carries : Carries lambdas worlds excused usable)
    (body : Text)
    (startsLine : Bool)
    {items : List Value}
    (areUsable : ∀ item ∈ items, usable item) :
    AgreeAcross (worlds inner) excused
      (renderItems lambdas first partials delimiters body startsLine items)
      (renderItems lambdas second partials delimiters body startsLine
        items) := by
  have rendered : ∀ item ∈ items, AgreeAcross (worlds inner) excused
      (renderItem lambdas first partials delimiters body startsLine item)
      (renderItem lambdas second partials delimiters body startsLine item) := by
    intro item member
    apply (carries.frames (areUsable item member)).bind
    intro frames
    exact (agreeAcross_withFrames carries frames (renderers _ _ _ _)).bind
      fun _ => .pure _
  exact (AgreeAcross.mapM rendered).bind fun _ => .pure _

theorem endAlike_expandBody
    (carries : Carries lambdas worlds excused usable)
    {kind : TokenKind}
    {name body : Text}
    (startsLine : Bool)
    (made :
      EndAlike (worlds inner) excused
        (sectionItems lambdas kind name body world)
        (sectionItems lambdas kind name body world'))
    (areUsable :
      ∀ items,
        (sectionItems lambdas kind name body world).1 = .ok (.inl items) →
        ∀ item ∈ items, usable item) :
    EndAlike (worlds inner) excused
      (expandBody lambdas first partials delimiters kind name body startsLine
        world)
      (expandBody lambdas second partials delimiters kind name body startsLine
        world') := by
  rw [expandBody_eq_sectionItems, expandBody_eq_sectionItems]
  apply made.bind
  rintro (items | template) after after' isMade left
  · have known := areUsable items (congrArg Prod.fst isMade)
    exact agreeAcross_renderItems renderers carries body startsLine known _ _
      left
  · exact renderers _ _ _ _ _ _ left

theorem endAlike_expandLeaf
    {reader : Reader}
    {token : Token}
    (together : worlds inner world world')
    (alike :
      (Node.leaf token).ReadAlike lambdas (worlds inner) excused usable reader
        world world') :
    EndAlike (worlds inner) excused
      (expandLeaf lambdas first partials reader token world)
      (expandLeaf lambdas second partials reader token world') := by
  unfold expandLeaf
  cases kind : token.kind with
  | comment | setDelimiters =>
    apply EndAlike.ofEdit_bind together
    exact fun _ _ => agreeAcross_ofEdit _ _ _ together
  | interpolation =>
    exact (endAlike_interpolate renderers (alike (.inl kind))).bind fun _ _ _
        _ =>
      agreeAcross_ofEdit _ _ _
  | unescaped =>
    exact (endAlike_interpolate renderers (alike (.inr (.inl kind)))).bind fun _
        _ _ _ =>
      agreeAcross_ofEdit _ _ _
  | implicit =>
    exact (endAlike_interpolate renderers (alike (.inr (.inr kind)))).bind fun _
        _ _ _ =>
      agreeAcross_ofEdit _ _ _
  | inclusion =>
    apply EndAlike.ofEdit_bind together
    intro trimmed _
    exact
      ((agreeAcross_includePartial renderers _ _).bind fun _ =>
        agreeAcross_ofEdit _)
      _ _ together
  | text | opener | invertedOpener | closer => exact .inr ⟨rfl, together⟩

theorem endAlike_expandPaired
    (carries : Carries lambdas worlds excused usable)
    {reader : Reader}
    {opener closer : Token}
    (together : worlds inner world world')
    (alike :
      (Node.paired opener closer).ReadAlike lambdas (worlds inner) excused
        usable reader world world') :
    EndAlike (worlds inner) excused
      (expandPaired lambdas first partials delimiters reader opener closer
        world)
      (expandPaired lambdas second partials delimiters reader opener closer
        world') := by
  rw [expandPaired_eq_sectionBody, expandPaired_eq_sectionBody]
  apply EndAlike.ofEdit_bind together
  rintro ⟨trimmed, body, startsLine⟩ isBody
  rcases alike trimmed body startsLine isBody with ⟨made, areUsable⟩
  exact (endAlike_expandBody renderers carries startsLine made areUsable).bind
    fun _ _ _ _ =>
    agreeAcross_ofEdit _ _ _

variable (inner) in
/-- The next node is expanded alike if it looks at the same. -/
theorem endAlike_expandNext
    (carries : Carries lambdas worlds excused usable)
    {state : Reader × Delimiters}
    (together : worlds inner world world')
    (alike :
      ∀ node after reader,
        state.1.nextNode state.2 = (.ok (some node), after, reader) →
        node.ReadAlike lambdas (worlds inner) excused usable reader world
          world') :
    EndAlike (worlds inner) excused
      (expandNext lambdas first partials state world)
      (expandNext lambdas second partials state world') := by
  rcases state with ⟨reader, delimiters⟩
  simp only [expandNext]
  rcases read : reader.nextNode delimiters with ⟨_ | _ | node, after, left⟩
  · exact AgreeAcross.throw _ world world' together
  · exact AgreeAcross.pure _ world world' together
  · have nodes := alike node after left read
    have expanded : EndAlike (worlds inner) excused
        (expandNode lambdas first partials delimiters left node world)
        (expandNode lambdas second partials delimiters left node world') := by
      cases node with
      | leaf token =>
        exact (endAlike_expandLeaf renderers together nodes).bind fun _ _ _ _
            left =>
          .inr ⟨rfl, left⟩
      | paired opener closer =>
        exact (endAlike_expandPaired renderers carries together nodes).bind
          fun _ _ _ _ left =>
          .inr ⟨rfl, left⟩
    exact expanded.bind fun _ _ _ _ left => .inr ⟨rfl, left⟩

end

/-- In one world a node looks at one thing, so only the renderers matter. -/
theorem agree_expandNext
    {excused : Stop → Prop}
    {nested nested' : TemplateRenderer}
    (renderers : RenderersAgree excused nested nested')
    (lambdas : Lambdas)
    (partials : Partials)
    (state : Reader × Delimiters) :
    Agree excused Eq (expandNext lambdas nested partials state)
      (expandNext lambdas nested' partials state) := by
  have carries : Carries lambdas (fun _ => Eq) excused fun _ => True :=
    { push := by
        rintro _ _ _ frame rfl
        rfl
      pop := by
        rintro _ _ _ _ rfl
        rfl
      frames := fun _ => agreeAcross_eq_iff.2 (Agree.refl _) }
  apply agreeAcross_eq_iff.1
  intro world world' together
  apply endAlike_expandNext []
    (fun _ template partials delimiters =>
      agreeAcross_eq_iff.2 (renderers template partials delimiters))
    carries together
  intro node after reader _
  cases together
  cases node with
  | leaf token => exact fun _ => .inr ⟨rfl, rfl⟩
  | paired opener closer =>
    exact fun _ _ _ _ => ⟨.inr ⟨rfl, rfl⟩, fun _ _ _ _ => True.intro⟩

/-! ## Watching what is looked at -/

/-- Rendering in a buffer that gives up where it is told to halt. -/
def watching
    (lambdas : Lambdas)
    (halts : World → Reader × Delimiters → Prop)
    [∀ world state, Decidable (halts world state)] :
    Machine (Reader × Delimiters) where
  start template delimiters := (Reader.ofText template, delimiters)
  step render partials state := do
    let world ← get
    if halts world state then throw .endless
    else expandNext lambdas render partials state

section

variable
    {halts : World → Reader × Delimiters → Prop}
    [∀ world state, Decidable (halts world state)]

theorem watching_step
    (render : TemplateRenderer)
    (partials : Partials)
    (state : Reader × Delimiters)
    (world : World) :
    (watching lambdas halts).step render partials state world =
      if halts world state then
        (.error .endless, world)
      else
        expandNext lambdas render partials state world := by
  have same : (watching lambdas halts).step render partials state world =
      (if halts world state then throw .endless
        else expandNext lambdas render partials state : RenderM _) world :=
    rfl
  rw [same]
  split <;> rfl

/--
Where a rendering that gives up before some nodes does not do so, rendering goes
along with it in every world that goes together with its own, if the nodes that
are left look at the same in both.
-/
theorem agreeAcross_watching
    {worlds : List Value → World → World → Prop}
    {usable : Value → Prop}
    (carries : Carries lambdas worlds (· = .endless) usable)
    (alike :
      ∀ {inner world world' state node after reader},
        worlds inner world world' → ¬halts world state →
        state.1.nextNode state.2 = (.ok (some node), after, reader) →
        node.ReadAlike lambdas (worlds inner) (· = .endless) usable reader world
          world')
    (fuel : Nat)
    (inner : List Value)
    (partials : Partials)
    (state : Reader × Delimiters) :
    AgreeAcross (worlds inner) (· = .endless)
      ((watching lambdas halts).run fuel partials state)
      ((bufferMachine lambdas).run fuel partials state) := by
  induction fuel generalizing inner partials state with
  | zero => exact .throw _
  | succ fuel ih =>
    rw [Machine.run_succ, Machine.run_succ]
    have step :
        AgreeAcross (worlds inner) (· = .endless)
          ((watching lambdas halts).step ((watching lambdas halts).render fuel)
            partials state)
          ((bufferMachine lambdas).step ((bufferMachine lambdas).render fuel)
            partials state) := by
      intro world world' together
      rw [watching_step]
      split
      · exact .inl ⟨.endless, rfl, rfl⟩
      · rename_i goesOn
        exact endAlike_expandNext inner
          (fun inner template partials delimiters => ih inner partials _)
          carries together fun _ _ _ read => alike together goesOn read
    apply step.bind
    rintro (text | state)
    · exact .pure _
    · exact ih inner partials state

end

end Mustache
