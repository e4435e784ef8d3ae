import Mustache.Proofs.Render.Agreement
import Mustache.Render.Template

/-!
# The context stack outlives a rendering

Everything that takes part in a rendering works on one context stack, and
section bodies are rendered with more frames on it.  Whether a computation ends
with an answer or stops early, the stack is afterwards the one it started with:
`Restores` says so, and goes through binds, so it holds of what a tag, a section
and a node stand for as soon as it holds of the renderer that nested templates
are given to.  Induction on the fuel closes the circle.

The iterations of a section therefore do not see each other's frames.
`Iterates` describes them one after the other, each from the same stack and with
the frames of its own item, and `interpretWithin_restores_stack` finds the text
of a section over a list in them.
-/

namespace Mustache

namespace ContextStack

theorem foldl_pop_pop
    (stack : ContextStack)
    (frames : List Value) :
    frames.foldl (fun stack _ => stack.pop) stack.pop =
      (frames.foldl (fun stack _ => stack.pop) stack).pop := by
  induction frames generalizing stack with
  | nil => rfl
  | cons frame rest ih => exact ih stack.pop

/-- Removing as many frames as were added. -/
@[simp]
theorem foldl_pop_foldl_push
    (stack : ContextStack)
    (frames : List Value) :
    frames.foldl (fun stack _ => stack.pop) (frames.foldl push stack) =
      stack := by
  induction frames generalizing stack with
  | nil => rfl
  | cons frame rest ih =>
    rw [List.foldl_cons, List.foldl_cons, foldl_pop_pop, ih, pop_push]

end ContextStack

namespace RenderM

variable {α β : Type}

/--
A computation ends, with an answer or a stop, with the stack it started with.
-/
structure Restores (computation : RenderM α) : Prop where
  stack_eq : ∀ world, (computation world).2.stack = world.stack

theorem Restores.pure (answer : α) : Restores (pure answer) :=
  ⟨fun _ => rfl⟩

theorem Restores.throw (stop : Stop) : Restores (throw stop : RenderM α) :=
  ⟨fun _ => rfl⟩

theorem Restores.bind
    {first : RenderM α}
    {next : α → RenderM β}
    (restores : Restores first)
    (onward : ∀ answer, Restores (next answer)) :
    Restores (first >>= next) where
  stack_eq world := by
    have start := restores.stack_eq world
    rw [run_bind]
    generalize first world = outcome at start ⊢
    rcases outcome with ⟨stop | answer, after⟩
    · exact start
    · exact ((onward answer).stack_eq after).trans start

theorem Restores.mapM
    {step : α → RenderM β}
    (restores : ∀ item, Restores (step item))
    (items : List α) :
    Restores (items.mapM step) := by
  induction items with
  | nil => exact .pure _
  | cons item rest ih =>
    rw [List.mapM_cons]
    exact (restores item).bind fun _ => ih.bind fun _ => .pure _

theorem Restores.get : Restores (get : RenderM World) :=
  ⟨fun _ => rfl⟩

theorem restores_ofEffect (effect : Effect α) : Restores (ofEffect effect) :=
  ⟨fun _ => rfl⟩

theorem ofEffect_run
    (effect : Effect α)
    (world : World) :
    ofEffect effect world =
      (.ok (effect world.store).1,
        { world with store := (effect world.store).2 }) :=
  rfl

/-- The text of a value, unless the value contains itself. -/
theorem textOf_run
    (value : Value)
    (world : World) :
    textOf value world =
      (match value.text? world.store with
        | some text => .ok text.toList
        | none => .error .endless, world) := by
  have read : textOf value world =
      (match value.text? world.store with
        | some text => pure text.toList
        | none => throw .endless : RenderM Text) world :=
    rfl
  rw [read]
  cases value.text? world.store <;> rfl

theorem restores_ofEdit (edited : Option α) : Restores (ofEdit edited) := by
  cases edited with
  | none => exact .throw _
  | some => exact .pure _

theorem restores_ofReading (result : Except RenderError α) :
    Restores (ofReading result) := by
  cases result with
  | error => exact .throw _
  | ok => exact .pure _

theorem restores_textOf (value : Value) : Restores (textOf value) := by
  apply Restores.get.bind
  intro world
  split
  · exact .pure _
  · exact .throw _

theorem resolve_run
    (lambdas : Lambdas)
    (name : Text)
    (body : Option Text)
    (world : World) :
    resolve lambdas name body world =
      (.ok
          (world.stack.resolve lambdas (Name.ofText name)
            (body.map String.ofList) world.store).1,
        { world with
          store :=
            (world.stack.resolve lambdas (Name.ofText name)
              (body.map String.ofList) world.store).2 }) :=
  rfl

theorem restores_resolve
    (lambdas : Lambdas)
    (name : Text)
    (body : Option Text) :
    Restores (resolve lambdas name body) :=
  Restores.get.bind fun _ => restores_ofEffect _

/--
The frames that are added for a computation are the ones removed after it.
-/
theorem restores_withFrames
    {action : RenderM α}
    (restores : Restores action)
    (frames : List Value) :
    Restores (withFrames frames action) where
  stack_eq world := by
    have inside := restores.stack_eq
      { world with stack := frames.foldl ContextStack.push world.stack }
    show
      frames.foldl (fun stack _ => stack.pop)
          (action
            { world with
              stack := frames.foldl ContextStack.push world.stack }).2.stack = _
    rw [inside, ContextStack.foldl_pop_foldl_push]

end RenderM

open RenderM

variable
    {lambdas : Lambdas}
    {render : TemplateRenderer}
    {partials : Partials}
    {delimiters : Delimiters}

theorem restores_framesOf
    (lambdas : Lambdas)
    (item : Value) :
    Restores (framesOf lambdas item) := by
  apply (restores_ofEffect _).bind
  intro converted
  split
  · exact (restores_ofEffect _).bind fun _ => .pure _
  · exact .pure _

theorem restores_sectionValue
    (lambdas : Lambdas)
    (name body : Text) :
    Restores (sectionValue lambdas name body) := by
  apply (restores_resolve ..).bind
  intro found
  split
  · exact .pure _
  · exact (restores_ofEffect _).bind fun _ => .pure _

/-- The value of a section's name is what the name stands for, converted. -/
theorem sectionValue_of_resolve
    {name body : Text}
    {world between : World}
    {found value : Value}
    {after : Store}
    (named :
      resolve lambdas name (some body) world = (.ok (some found), between))
    (converts : found.convert lambdas between.store = (value, after)) :
    sectionValue lambdas name body world =
      (.ok (some value), ⟨after, between.stack⟩) := by
  rw [sectionValue, run_bind, named]
  simp only [map_eq_pure_bind, run_bind, ofEffect_run, converts]
  rfl

section

variable
    (restores :
      ∀ template partials delimiters,
        Restores (render template partials delimiters))
include restores

theorem restores_interpolate (name : Text) :
    Restores (interpolate lambdas render name) := by
  apply (restores_resolve ..).bind
  intro found
  split
  · exact .pure _
  · apply (restores_ofEffect _).bind
    intro value
    split
    · apply (restores_ofEffect _).bind
      intro result
      apply (restores_textOf result).bind
      intro template
      exact restores ..
    · exact restores_textOf _

theorem restores_includePartial (name indentation : Text) :
    Restores (includePartial render partials name indentation) := by
  unfold includePartial
  split
  · exact .pure _
  · split
    · exact .pure _
    · exact restores ..

theorem restores_renderItem
    (body : Text)
    (startsLine : Bool)
    (item : Value) :
    Restores
      (renderItem lambdas render partials delimiters body startsLine item) := by
  apply (restores_framesOf lambdas item).bind
  intro frames
  apply (restores_withFrames (restores ..) frames).bind
  intro text
  exact .pure _

theorem restores_renderItems
    (body : Text)
    (startsLine : Bool)
    (items : List Value) :
    Restores
      (renderItems lambdas render partials delimiters body startsLine items) :=
  (Restores.mapM (restores_renderItem restores body startsLine) items).bind
    fun _ => .pure _

theorem restores_expandFor
    (kind : TokenKind)
    (body : Text)
    (startsLine : Bool)
    (value : Option Value) :
    Restores
      (expandFor lambdas render partials delimiters kind body startsLine
        value) := by
  unfold expandFor
  split
  · exact restores_renderItems restores ..
  · split
    · exact restores_renderItems restores ..
    · apply (restores_ofEffect _).bind
      intro result
      split
      · exact restores ..
      · exact restores_renderItems restores ..
    · exact restores_renderItems restores ..

theorem restores_expandBody
    (kind : TokenKind)
    (name body : Text)
    (startsLine : Bool) :
    Restores
      (expandBody lambdas render partials delimiters kind name body
        startsLine) :=
  (restores_sectionValue lambdas name body).bind fun value =>
    restores_expandFor restores kind body startsLine value

theorem restores_expandLeaf
    (reader : Reader)
    (token : Token) :
    Restores (expandLeaf lambdas render partials reader token) := by
  unfold expandLeaf
  split
  · exact (restores_ofEdit _).bind fun _ => restores_ofEdit _
  · exact (restores_ofEdit _).bind fun _ => restores_ofEdit _
  · exact (restores_interpolate restores _).bind fun _ => restores_ofEdit _
  · exact (restores_interpolate restores _).bind fun _ => restores_ofEdit _
  · exact (restores_interpolate restores _).bind fun _ => restores_ofEdit _
  · apply (restores_ofEdit _).bind
    intro trimmed
    exact (restores_includePartial restores ..).bind fun _ => restores_ofEdit _
  all_goals exact .pure _

theorem restores_expandPaired
    (reader : Reader)
    (opener closer : Token) :
    Restores
      (expandPaired lambdas render partials delimiters reader opener
        closer) := by
  apply (restores_ofEdit _).bind
  intro closerTrimmed
  apply (restores_ofEdit _).bind
  intro openerTrimmed
  exact (restores_expandBody restores ..).bind fun _ => restores_ofEdit _

theorem restores_expandNext (state : Reader × Delimiters) :
    Restores (expandNext lambdas render partials state) := by
  apply (restores_ofReading _).bind
  intro read
  split
  · exact .pure _
  · rename_i node
    have expanded : ∀ reader, Restores
        (expandNode lambdas render partials state.2 reader node) := by
      intro reader
      cases node with
      | leaf token =>
        exact (restores_expandLeaf restores reader token).bind fun _ => .pure _
      | paired opener closer =>
        exact (restores_expandPaired restores reader opener closer).bind
          fun _ => .pure _
    exact (expanded _).bind fun _ => .pure _

end

/--
A rendering leaves the stack as it was, however deep it goes and however it
ends.
-/
theorem restores_expandRest
    (lambdas : Lambdas)
    (fuel : Nat)
    (partials : Partials)
    (state : Reader × Delimiters) :
    Restores (expandRest lambdas fuel partials state) := by
  induction fuel generalizing partials state with
  | zero => exact .throw _
  | succ fuel ih =>
    apply
      (restores_expandNext (fun template partials delimiters => ih partials _)
        state).bind
    intro read
    split
    · exact .pure _
    · exact ih partials _

/-! ## The iterations of a section -/

/--
Rendering a body for each of some items in turn, from one stack: what comes out,
and the store at the end.  An iteration starts from the store that the one
before left and has the frames of its own item on the stack.  The first one that
stops is the last.
-/
inductive Iterates
    (lambdas : Lambdas)
    (render : RenderM Text)
    (startsLine : Bool)
    (stack : ContextStack) :
    List Value → Store → Except Stop (List Text) → Store → Prop where
  | done {store : Store} :
      Iterates lambdas render startsLine stack [] store (.ok []) store
  | stops
      {item : Value}
      {rest : List Value}
      {frames : List Value}
      {store called after : Store}
      {stop : Stop}
      (isCalled :
        framesOf lambdas item ⟨store, stack⟩ = (.ok frames, ⟨called, stack⟩))
      (isStopped :
        render ⟨called, frames.foldl ContextStack.push stack⟩ =
          (.error stop, ⟨after, frames.foldl ContextStack.push stack⟩)) :
      Iterates lambdas render startsLine stack (item :: rest) store
        (.error stop) after
  | next
      {item : Value}
      {rest : List Value}
      {frames : List Value}
      {store called between after : Store}
      {text : Text}
      {texts : Except Stop (List Text)}
      (isCalled :
        framesOf lambdas item ⟨store, stack⟩ = (.ok frames, ⟨called, stack⟩))
      (isRendered :
        render ⟨called, frames.foldl ContextStack.push stack⟩ =
          (.ok text, ⟨between, frames.foldl ContextStack.push stack⟩))
      (later :
        Iterates lambdas render startsLine stack rest between texts after) :
      Iterates lambdas render startsLine stack (item :: rest) store
        (texts.map (unguarded text startsLine :: ·)) after

/-- Finding the frames of an item may change the store, and nothing else. -/
theorem framesOf_run
    (lambdas : Lambdas)
    (item : Value)
    (store : Store)
    (stack : ContextStack) :
    ∃ frames called,
      framesOf lambdas item ⟨store, stack⟩ = (.ok frames, ⟨called, stack⟩) := by
  rw [framesOf, run_bind]
  simp only [ofEffect_run]
  cases (item.toPrimitive? lambdas store).1.getD item with
  | lambda lambda => exact ⟨_, _, rfl⟩
  | _ => exact ⟨_, _, rfl⟩

/--
Rendering for an item, given what comes out of the body with the frames of the
item.
-/
theorem renderItem_run
    {item : Value}
    {frames : List Value}
    {store called after : Store}
    {stack : ContextStack}
    {body : Text}
    {startsLine : Bool}
    {result : Except Stop Text}
    (isCalled :
      framesOf lambdas item ⟨store, stack⟩ = (.ok frames, ⟨called, stack⟩))
    (isRendered :
      render (guarded body startsLine) partials delimiters
          ⟨called, frames.foldl ContextStack.push stack⟩ =
        (result, ⟨after, frames.foldl ContextStack.push stack⟩)) :
    renderItem lambdas render partials delimiters body startsLine item
        ⟨store, stack⟩ =
      (result.map (unguarded · startsLine), ⟨after, stack⟩) := by
  rw [renderItem, run_bind, isCalled]
  simp only
  rw [run_bind, withFrames]
  simp only [isRendered, ContextStack.foldl_pop_foldl_push]
  cases result <;> rfl

/-- The text for a single item is that of its iteration. -/
theorem renderItems_singleton
    (lambdas : Lambdas)
    (render : TemplateRenderer)
    (partials : Partials)
    (delimiters : Delimiters)
    (body : Text)
    (startsLine : Bool)
    (item : Value) :
    renderItems lambdas render partials delimiters body startsLine [item] =
      renderItem lambdas render partials delimiters body startsLine item := by
  simp [renderItems]

/-- Is a section over the value rendered once, for the value itself? -/
def Value.isSingle : Value → Bool
  | .list _ | .lambda _ => false
  | value => value.isTruthy

theorem itemsOf_of_isSingle
    {value : Value}
    (single : value.isSingle = true) :
    itemsOf value = [value] := by
  cases value with
  | list | lambda => cases single
  | _ =>
    simp only [itemsOf]
    exact if_pos single

/-- A section over a single value is rendered for the value. -/
theorem expandBody_of_single
    {name body : Text}
    {world between : World}
    {value : Value}
    (named : sectionValue lambdas name body world = (.ok (some value), between))
    (single : value.isSingle = true)
    (partials : Partials)
    (delimiters : Delimiters)
    (startsLine : Bool) :
    expandBody lambdas render partials delimiters .opener name body startsLine
        world =
      renderItem lambdas render partials delimiters body startsLine value
        between := by
  have one :
      expandFor lambdas render partials delimiters .opener body startsLine
          (some value) =
        renderItem lambdas render partials delimiters body startsLine
          value := by
    rw [← renderItems_singleton, ← itemsOf_of_isSingle single]
    cases value with
    | lambda => cases single
    | _ => rfl
  rw [expandBody, run_bind, named]
  simp only [one]

/-- A section over a list of one is rendered for the item. -/
theorem expandBody_of_singleton
    {name body : Text}
    {world between : World}
    {value : Value}
    (named :
      sectionValue lambdas name body world =
        (.ok (some (.list [value])), between))
    (partials : Partials)
    (delimiters : Delimiters)
    (startsLine : Bool) :
    expandBody lambdas render partials delimiters .opener name body startsLine
        world =
      renderItem lambdas render partials delimiters body startsLine value
        between := by
  rw [expandBody, run_bind, named, ← renderItems_singleton]
  rfl

theorem iterates_mapM
    {body : Text}
    {startsLine : Bool}
    (restores : Restores (render (guarded body startsLine) partials delimiters))
    (lambdas : Lambdas)
    (items : List Value)
    (store : Store)
    (stack : ContextStack) :
    ∃ texts after,
      Iterates lambdas (render (guarded body startsLine) partials delimiters)
        startsLine stack items store texts after ∧
      items.mapM (renderItem lambdas render partials delimiters body startsLine)
          ⟨store, stack⟩ =
        (texts, ⟨after, stack⟩) := by
  induction items generalizing store with
  | nil => exact ⟨.ok [], store, .done, rfl⟩
  | cons item rest ih =>
    rcases framesOf_run lambdas item store stack with ⟨frames, called, isCalled⟩
    rw [List.mapM_cons, run_bind]
    have same :=
      restores.stack_eq ⟨called, frames.foldl ContextStack.push stack⟩
    rcases ended :
        render (guarded body startsLine) partials delimiters
          ⟨called, frames.foldl ContextStack.push stack⟩ with
      ⟨stop | text, between, _⟩
    · rw [ended] at same
      cases same
      rw [renderItem_run isCalled ended]
      exact ⟨.error stop, between, .stops isCalled ended, rfl⟩
    · rw [ended] at same
      cases same
      rw [renderItem_run isCalled ended]
      rcases ih between with ⟨texts, after, later, isRest⟩
      refine ⟨_, after, .next isCalled ended later, ?_⟩
      simp only [Except.map, run_bind, isRest]
      cases texts <;> rfl

/-- The text for some items is that of their iterations, one after the other. -/
theorem iterates_renderItems
    {body : Text}
    {startsLine : Bool}
    (restores : Restores (render (guarded body startsLine) partials delimiters))
    (lambdas : Lambdas)
    (items : List Value)
    (store : Store)
    (stack : ContextStack) :
    ∃ texts after,
      Iterates lambdas (render (guarded body startsLine) partials delimiters)
        startsLine stack items store texts after ∧
      renderItems lambdas render partials delimiters body startsLine items
          ⟨store, stack⟩ =
        (texts.map List.flatten, ⟨after, stack⟩) := by
  rcases iterates_mapM restores lambdas items store stack with
    ⟨texts, after, iterates, isRun⟩
  refine ⟨texts, after, iterates, ?_⟩
  rw [renderItems, run_bind, isRun]
  cases texts <;> rfl

/--
A rendering leaves the stack as it was, whatever the template, the data and the
lambdas are, however deep it goes and whether it ends with a text or not.  So
each iteration of a section over a list starts from one stack and its own item's
frames, and the text of the section is made of those of the iterations in their
order.
-/
theorem interpretWithin_restores_stack
    (lambdas : Lambdas)
    (fuel : Nat)
    (template : Text)
    (partials : Partials)
    (delimiters : Delimiters)
    (world : World) :
    (interpretWithin lambdas fuel template partials delimiters world).2.stack =
      world.stack ∧
    ∀ (body : Text) (startsLine : Bool) (items : List Value),
      ∃ texts after,
        Iterates lambdas
          (interpretWithin lambdas fuel (guarded body startsLine) partials
            delimiters)
          startsLine world.stack items world.store texts after ∧
        expandFor lambdas (interpretWithin lambdas fuel) partials delimiters
            .opener body startsLine (some (.list items)) world =
          (texts.map List.flatten, ⟨after, world.stack⟩) :=
  ⟨(restores_expandRest lambdas fuel partials _).stack_eq world,
    fun _ _ items =>
      iterates_renderItems (restores_expandRest lambdas fuel partials _) lambdas
        items world.store world.stack⟩

end Mustache
