import Mustache.Proofs.Render.Outcome
import Mustache.Proofs.Render.Stack
import Mustache.Proofs.Value.Pure

/-!
# Rendering with pure data

In a world all of whose frames are pure, a name shows one value, which is found
without changing the world (`World.Shows`).  An interpolation stands for its
text, and a section is rendered for items that can be read off it.  The only way
to stop is to show a value that contains itself.  A section is rendered in
worlds of the same kind, so it stops only as the renderer stops that its body is
given to, and rendering as a whole leaves the world as it is.
-/

namespace Mustache

namespace RenderM

variable
    {α β : Type}
    {world : World}
    {answers : α → Prop}
    {further : β → Prop}
    {stops : Stop → Prop}

/--
A computation leaves the world as it is, and ends with such an answer or such a
stop.
-/
def Settles
    (world : World)
    (answers : α → Prop)
    (stops : Stop → Prop)
    (computation : RenderM α) : Prop :=
  Meets (· = world) (fun answer after => answers answer ∧ after = world)
    (fun stop after => stops stop ∧ after = world) computation

theorem Settles.pure
    {answer : α}
    (holds : answers answer) :
    Settles world answers stops (pure answer) :=
  Meets.pure fun _ same => ⟨holds, same⟩

theorem Settles.throw
    {stop : Stop}
    (holds : stops stop) :
    Settles world answers stops (throw stop) := by
  rintro _ rfl
  exact ⟨holds, rfl⟩

theorem Settles.get :
    Settles world (· = world) stops (get : RenderM World) := by
  intro start isWorld
  rw [isWorld]
  exact ⟨rfl, rfl⟩

theorem Settles.bind
    {first : RenderM α}
    {next : α → RenderM β}
    (settles : Settles world answers stops first)
    (onward :
      ∀ answer, answers answer → Settles world further stops (next answer)) :
    Settles world further stops (first >>= next) := by
  apply Meets.bind settles
  rintro answer _ ⟨holds, rfl⟩
  exact onward answer holds _ rfl

theorem Settles.map
    {change : α → β}
    {computation : RenderM α}
    (settles : Settles world answers stops computation)
    (holds : ∀ answer, answers answer → further (change answer)) :
    Settles world further stops (change <$> computation) := by
  rw [map_eq_pure_bind]
  exact settles.bind fun answer isAnswer => .pure (holds answer isAnswer)

theorem Settles.congr
    {first second : RenderM α}
    (settles : Settles world answers stops first)
    (same : first world = second world) :
    Settles world answers stops second := by
  intro start isWorld
  rw [isWorld, ← same]
  exact settles world rfl

theorem Settles.mono
    {answers' : α → Prop}
    {stops' : Stop → Prop}
    {computation : RenderM α}
    (settles : Settles world answers stops computation)
    (answer : ∀ result, answers result → answers' result)
    (stop : ∀ cause, stops cause → stops' cause) :
    Settles world answers' stops' computation := by
  intro start isWorld
  rw [isWorld]
  have ends := settles world rfl
  generalize computation world = outcome at ends ⊢
  rcases outcome with ⟨cause | result, after⟩
  · exact ⟨stop cause ends.1, ends.2⟩
  · exact ⟨answer result ends.1, ends.2⟩

/-- What the steps answer, all answers of a loop satisfy. -/
theorem Settles.mapM
    {step : α → RenderM β}
    {items : List α}
    (settles : ∀ item ∈ items, Settles world further stops (step item)) :
    Settles world (fun results => ∀ result ∈ results, further result) stops
      (items.mapM step) := by
  induction items with
  | nil => exact .pure (by simp)
  | cons item items ih =>
    rcases List.forall_mem_cons.1 settles with ⟨first, others⟩
    rw [List.mapM_cons]
    apply first.bind
    intro result holds
    apply (ih others).bind
    intro results hold
    exact .pure (List.forall_mem_cons.2 ⟨holds, hold⟩)

/-- Rendering with more frames leaves the stack as it was. -/
theorem Settles.withFrames
    {frames : List Value}
    {action : RenderM α}
    (settles :
      Settles { world with stack := frames.foldl ContextStack.push world.stack }
        answers stops action) :
    Settles world answers stops (withFrames frames action) := by
  intro start isWorld
  rw [isWorld]
  have ends := settles _ rfl
  simp only [RenderM.withFrames]
  generalize action
      { world with
        stack := frames.foldl ContextStack.push world.stack } = outcome
    at ends ⊢
  rcases outcome with ⟨stop | answer, after⟩
  · rcases ends with ⟨holds, rfl⟩
    exact ⟨holds, by simp⟩
  · rcases ends with ⟨holds, rfl⟩
    exact ⟨holds, by simp⟩

end RenderM

open RenderM

/-- A world with the given store in which all frames are known. -/
structure World.Within
    (store : Store)
    (known : Value → Prop)
    (world : World) : Prop where
  store_eq : world.store = store
  stack : world.stack.Within known

/-- A known value contains itself and is shown. -/
def Unshowable (store : Store) (known : Value → Prop) : Prop :=
  ∃ value, known value ∧ value.text? store = none

variable
    {store : Store}
    {known : Value → Prop}
    {world : World}
    {lambdas : Lambdas}
    {stops : Stop → Prop}

theorem World.Within.pushAll
    (within : world.Within store known)
    {frames : List Value}
    (areKnown : ∀ frame ∈ frames, known frame) :
    World.Within store known
      { world with stack := frames.foldl ContextStack.push world.stack } := by
  refine ⟨within.store_eq, ?_⟩
  have isWithin := within.stack
  simp only
  generalize world.stack = stack at isWithin ⊢
  induction frames generalizing stack with
  | nil => exact isWithin
  | cons frame frames ih =>
    rcases List.forall_mem_cons.1 areKnown with ⟨isKnown, others⟩
    exact ih others _ (isWithin.push isKnown)

theorem World.within_ofRoot
    {data : Value}
    (isKnown : known data) :
    World.Within store known ⟨store, .ofRoot data⟩ :=
  ⟨rfl, .ofRoot isKnown⟩

/-! ## What a name shows -/

/--
In a world, a name shows a value: what the name stands for, or null, converted.
Finding it leaves the store as it is, and no section body has a say in it.
-/
structure World.Shows
    (lambdas : Lambdas)
    (world : World)
    (name : Text)
    (value : Value) : Prop where
  resolves :
    ∃ found,
      (∀ text,
        world.stack.resolve lambdas (Name.ofText name) text world.store =
          (found, world.store)) ∧
      (found.getD .null).convert lambdas world.store = (value, world.store)
  not_lambda : ∀ lambda, value ≠ .lambda lambda

theorem World.Within.exists_shows
    (values : PureValues lambdas store known)
    (within : world.Within store known)
    (name : Text) :
    ∃ value,
      world.Shows lambdas name value ∧ (value = .null ∨ known value) := by
  rcases world.stack.resolve_of_within values (Name.ofText name)
      within.stack with ⟨found, resolved, isFound⟩
  rw [← within.store_eq] at resolved
  cases found with
  | none =>
    refine ⟨.null, ⟨⟨none, resolved, rfl⟩, ?_⟩, .inl rfl⟩
    rintro lambda ⟨⟩
  | some value =>
    rcases values.convert (isFound value rfl) with
      ⟨converted, converts, isKnown⟩
    rw [← within.store_eq] at converts
    exact ⟨converted,
      ⟨⟨some value, resolved, converts⟩, values.ne_lambda isKnown⟩,
      .inr isKnown⟩

/--
The items that a section's body is rendered for, by the kind of the section.
-/
def itemsFor (kind : TokenKind) (value : Value) : List Value :=
  if kind = .invertedOpener then
    if value.isTruthy then [] else [.bool true]
  else
    itemsOf value

/-- An interpolation stands for the text of the value that its name shows. -/
theorem World.Shows.interpolate
    {name : Text}
    {value : Value}
    (shows : world.Shows lambdas name value)
    (render : TemplateRenderer) :
    interpolate lambdas render name world = textOf value world := by
  rcases shows.resolves with ⟨found, resolved, converts⟩
  rw [Mustache.interpolate, run_bind, resolve_run, resolved]
  cases found with
  | none =>
    cases converts
    rfl
  | some found =>
    simp only [Option.getD_some] at converts
    simp only [run_bind, ofEffect_run, converts]
    cases value with
    | lambda lambda => exact absurd rfl (shows.not_lambda lambda)
    | _ => rfl

/--
A section is rendered for the items that can be read off the value that its name
shows.
-/
theorem World.Shows.expandBody
    {name : Text}
    {value : Value}
    (shows : world.Shows lambdas name value)
    (render : TemplateRenderer)
    (partials : Partials)
    (delimiters : Delimiters)
    (kind : TokenKind)
    (body : Text)
    (startsLine : Bool) :
    expandBody lambdas render partials delimiters kind name body startsLine
        world =
      renderItems lambdas render partials delimiters body startsLine
        (itemsFor kind value) world := by
  rcases shows.resolves with ⟨found, resolved, converts⟩
  have named :
      sectionValue lambdas name body world =
        (.ok (found.map fun _ => value), world) := by
    rw [sectionValue, run_bind, resolve_run, resolved]
    cases found with
    | none => rfl
    | some found =>
      simp only [Option.getD_some] at converts
      show (some <$> ofEffect (found.convert lambdas)) world = _
      rw [map_eq_pure_bind, run_bind, ofEffect_run, converts]
      rfl
  rw [Mustache.expandBody, run_bind, named]
  simp only [expandFor, itemsFor]
  cases found with
  | none =>
    cases converts
    split <;> rfl
  | some found =>
    split
    · rfl
    · cases value with
      | lambda lambda => exact absurd rfl (shows.not_lambda lambda)
      | _ => rfl

/-! ## Tags and sections -/

theorem settles_textOf
    (within : world.Within store known)
    (endless : Unshowable store known → stops .endless)
    {value : Value}
    (isKnown : value = .null ∨ known value) :
    Settles world (fun _ => True) stops (textOf value) := by
  apply Settles.get.bind
  intro current isCurrent
  rw [isCurrent, within.store_eq]
  cases shown : value.text? store with
  | some text => exact .pure True.intro
  | none =>
    rcases isKnown with rfl | isKnown
    · cases shown
    · exact .throw (endless ⟨value, isKnown, shown⟩)

/-- An interpolation stops only where a value is shown that contains itself. -/
theorem settles_interpolate
    (values : PureValues lambdas store known)
    (within : world.Within store known)
    (render : TemplateRenderer)
    (endless : Unshowable store known → stops .endless)
    (name : Text) :
    Settles world (fun _ => True) stops (interpolate lambdas render name) := by
  rcases within.exists_shows values name with ⟨value, shows, isKnown⟩
  exact (settles_textOf within endless isKnown).congr
    (shows.interpolate render).symm

theorem settles_framesOf
    (values : PureValues lambdas store known)
    (within : world.Within store known)
    {item : Value}
    (isKnown : known item) :
    Settles world (fun frames => ∀ frame ∈ frames, known frame) stops
      (framesOf lambdas item) := by
  rcases values.converts item isKnown with ⟨converted, converts, isConverted⟩
  rw [← within.store_eq] at converts
  have areKnown : ∀ frame ∈ item :: converted.toList, known frame := by
    refine List.forall_mem_cons.2 ⟨isKnown, ?_⟩
    intro frame member
    exact isConverted frame (Option.mem_toList.1 member)
  have innermost : known (converted.getD item) := by
    cases converted with
    | none => exact isKnown
    | some inner => exact isConverted inner rfl
  have same :
      framesOf lambdas item world =
        (.ok (item :: converted.toList), world) := by
    simp only [framesOf, run_bind, ofEffect_run, converts]
    cases isInnermost : converted.getD item with
    | lambda lambda =>
      exact absurd isInnermost (values.ne_lambda innermost lambda)
    | _ => rfl
  exact (Settles.pure areKnown).congr same.symm

/-- A text that is put together from answers, each without its guards. -/
def MadeOf (answers : Text → Prop) (startsLine : Bool) (text : Text) : Prop :=
  ∃ texts : List Text, (∀ inner ∈ texts, answers inner) ∧
    text = (texts.map (unguarded · startsLine)).flatten

theorem MadeOf.flatten
    {answers : Text → Prop}
    {startsLine : Bool}
    {texts : List Text}
    (made :
      ∀ text ∈ texts,
        ∃ inner, answers inner ∧ text = unguarded inner startsLine) :
    MadeOf answers startsLine texts.flatten := by
  induction texts with
  | nil => exact ⟨[], by simp, rfl⟩
  | cons text texts ih =>
    rcases List.forall_mem_cons.1 made with ⟨⟨inner, holds, rfl⟩, others⟩
    rcases ih others with ⟨inners, hold, isFlat⟩
    exact ⟨inner :: inners, List.forall_mem_cons.2 ⟨holds, hold⟩,
      by simp [isFlat]⟩

/--
A body is rendered for known items if it is rendered in every world of known
frames.
-/
theorem settles_renderItems
    (values : PureValues lambdas store known)
    (within : world.Within store known)
    {answers : Text → Prop}
    {render : TemplateRenderer}
    {partials : Partials}
    {delimiters : Delimiters}
    {body : Text}
    {startsLine : Bool}
    (settles :
      ∀ world : World,
        world.Within store known →
        Settles world answers stops
          (render (guarded body startsLine) partials delimiters))
    {items : List Value}
    (areKnown : ∀ item ∈ items, known item) :
    Settles world (MadeOf answers startsLine) stops
      (renderItems lambdas render partials delimiters body startsLine
        items) := by
  have rendered :
      Settles world
        (fun texts =>
          ∀ text ∈ texts,
            ∃ inner, answers inner ∧ text = unguarded inner startsLine)
        stops
        (items.mapM
          (renderItem lambdas render partials delimiters body startsLine)) := by
    apply Settles.mapM
    intro item member
    apply (settles_framesOf values within (areKnown item member)).bind
    intro frames areFrames
    apply (settles _ (within.pushAll areFrames)).withFrames.bind
    intro text holds
    exact .pure ⟨text, holds, rfl⟩
  apply rendered.bind
  intro texts made
  exact .pure (.flatten made)

theorem known_itemsOf
    (values : PureValues lambdas store known)
    {value : Value}
    (isKnown : known value) :
    ∀ item ∈ itemsOf value, known item := by
  cases isValue : value with
  | list items =>
    rw [isValue] at isKnown
    exact values.item items isKnown
  | _ =>
    intro item member
    rw [← isValue] at member
    have single : itemsOf value = if value.isTruthy then [value] else [] := by
      rw [isValue]
      rfl
    rw [single] at member
    split at member
    · cases List.mem_singleton.1 member
      exact isKnown
    · cases member

theorem known_itemsFor
    (values : PureValues lambdas store known)
    {value : Value}
    (isKnown : value = .null ∨ known value)
    (kind : TokenKind) :
    ∀ item ∈ itemsFor kind value, known item := by
  intro item member
  unfold itemsFor at member
  split at member
  · split at member
    · cases member
    · cases List.mem_singleton.1 member
      exact values.shown
  · rcases isKnown with rfl | isKnown
    · cases member
    · exact known_itemsOf values isKnown item member

/--
A section is rendered if its body is rendered in every world of known frames.
-/
theorem settles_expandBody
    (values : PureValues lambdas store known)
    (within : world.Within store known)
    {answers : Text → Prop}
    {render : TemplateRenderer}
    {partials : Partials}
    {delimiters : Delimiters}
    {body : Text}
    {startsLine : Bool}
    (settles :
      ∀ world : World,
        world.Within store known →
        Settles world answers stops
          (render (guarded body startsLine) partials delimiters))
    (kind : TokenKind)
    (name : Text) :
    Settles world (MadeOf answers startsLine) stops
      (expandBody lambdas render partials delimiters kind name body
        startsLine) := by
  rcases within.exists_shows values name with ⟨value, shows, isKnown⟩
  exact
    (settles_renderItems values within settles
      (known_itemsFor values isKnown kind)).congr
    (shows.expandBody render partials delimiters kind body startsLine).symm

/-! ## Rendering in place -/

/-- A computation leaves the world as it is, however it ends. -/
def Keeps {α : Type} (world : World) (computation : RenderM α) : Prop :=
  Settles world (fun _ => True) (fun _ => True) computation

theorem Keeps.world_eq
    {α : Type}
    {computation : RenderM α}
    (keeps : Keeps world computation) :
    (computation world).2 = world := by
  have ends := keeps world rfl
  generalize computation world = outcome at ends ⊢
  rcases outcome with ⟨stop | answer, after⟩ <;> exact ends.2

section

variable {render : TemplateRenderer} {partials : Partials}

theorem keeps_ofEdit
    {α : Type}
    (edited : Option α) :
    Keeps world (ofEdit edited) := by
  cases edited with
  | none => exact .throw True.intro
  | some result => exact .pure True.intro

theorem keeps_includePartial
    (keeps :
      ∀ template partials delimiters,
        Keeps world (render template partials delimiters))
    (name indentation : Text) :
    Keeps world (includePartial render partials name indentation) := by
  unfold includePartial
  split
  · exact .pure True.intro
  · split
    · exact .pure True.intro
    · exact keeps _ _ _

variable
    (values : PureValues lambdas store known)
    (within : world.Within store known)
    (keeps :
      ∀ world : World,
        world.Within store known →
        ∀ template partials delimiters,
          Keeps world (render template partials delimiters))
include values within keeps

theorem keeps_expandLeaf
    (reader : Reader)
    (token : Token) :
    Keeps world (expandLeaf lambdas render partials reader token) := by
  have shown : Keeps world (interpolate lambdas render token.name) :=
    settles_interpolate values within render (fun _ => True.intro) token.name
  have trimmed : Keeps world (ofEdit (reader.trimLine? token)) := keeps_ofEdit _
  unfold expandLeaf
  split
  · exact trimmed.bind fun _ _ => keeps_ofEdit _
  · exact trimmed.bind fun _ _ => keeps_ofEdit _
  · exact shown.bind fun _ _ => keeps_ofEdit _
  · exact shown.bind fun _ _ => keeps_ofEdit _
  · exact shown.bind fun _ _ => keeps_ofEdit _
  · apply trimmed.bind
    intro parts _
    exact (keeps_includePartial (keeps world within) _ _).bind fun _ _ =>
      keeps_ofEdit _
  all_goals exact .pure True.intro

theorem keeps_expandPaired
    (delimiters : Delimiters)
    (reader : Reader)
    (opener closer : Token) :
    Keeps world
      (expandPaired lambdas render partials delimiters reader opener
        closer) := by
  apply (keeps_ofEdit _).bind
  intro closerTrimmed _
  apply (keeps_ofEdit _).bind
  intro openerTrimmed _
  apply
    (settles_expandBody values within
      (fun world isWithin => keeps world isWithin _ _ _) opener.kind
      opener.name).bind
  exact fun _ _ => keeps_ofEdit _

theorem keeps_expandNext (state : Reader × Delimiters) :
    Keeps world (expandNext lambdas render partials state) := by
  rcases state with ⟨reader, delimiters⟩
  unfold expandNext
  have reads : Keeps world (ofReading (reader.nextNode delimiters).1) := by
    cases (reader.nextNode delimiters).1 with
    | error => exact .throw True.intro
    | ok => exact .pure True.intro
  apply reads.bind
  rintro (_ | node) -
  · exact .pure True.intro
  · have expands (reader : Reader) :
        Keeps world
          (expandNode lambdas render partials delimiters reader node) := by
      cases node with
      | leaf token =>
        exact (keeps_expandLeaf values within keeps reader token).bind fun _
            _ =>
          .pure True.intro
      | paired opener closer =>
        exact
          (keeps_expandPaired values within keeps delimiters reader opener
            closer).bind fun _ _ => .pure True.intro
    exact (expands _).bind fun _ _ => .pure True.intro

end

/--
Rendering with pure data leaves the world as it is, with every template and
partial.
-/
theorem keeps_expandRest
    (values : PureValues lambdas store known)
    (within : world.Within store known)
    (fuel : Nat)
    (partials : Partials)
    (state : Reader × Delimiters) :
    Keeps world (expandRest lambdas fuel partials state) := by
  induction fuel generalizing world partials state with
  | zero => exact .throw True.intro
  | succ fuel ih =>
    apply
      (keeps_expandNext values within
        (fun world isWithin template partials delimiters =>
          ih isWithin partials _)
        state).bind
    rintro (text | state) -
    · exact .pure True.intro
    · exact ih within partials state

end Mustache
