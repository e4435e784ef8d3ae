import Mustache.Render.Tag

/-!
# Computations that agree

Two computations agree when, in every world, they stop for the same cause or
give related answers, and leave the same world.  The first may also stop for an
excused cause, and then nothing is said about the second.

Agreement goes through binds (`Agree.bind`), so what a tag or a section stands
for agrees as soon as the renderers agree that nested templates are given to.
-/

namespace Mustache

namespace RenderM

variable {α β γ δ : Type}

theorem run_bind
    (first : RenderM α)
    (next : α → RenderM β)
    (world : World) :
    (first >>= next) world =
      match first world with
      | (.ok answer, after) => next answer after
      | (.error stop, after) => (.error stop, after) := by
  show (ExceptT.bind first next) world = _
  simp only [ExceptT.bind, ExceptT.bindCont, ExceptT.mk, bind, StateT.bind]
  rcases first world with ⟨_ | _, after⟩ <;> rfl

theorem run_map
    (change : α → β)
    (computation : RenderM α)
    (world : World) :
    (change <$> computation) world =
      ((computation world).1.map change, (computation world).2) := by
  rw [← bind_pure_comp, run_bind]
  rcases computation world with ⟨_ | _, after⟩ <;> rfl

/-- The same stop, or related answers. -/
def SameOutcome (related : α → β → Prop) : Except Stop α → Except Stop β → Prop
  | .ok first, .ok second => related first second
  | .error first, .error second => first = second
  | _, _ => False

/--
In every world the computations end alike, or the first one ends with an excused
stop.
-/
def Agree
    (excused : Stop → Prop)
    (related : α → β → Prop)
    (first : RenderM α)
    (second : RenderM β) : Prop :=
  ∀ world,
    (∃ stop, (first world).1 = .error stop ∧ excused stop) ∨
    SameOutcome related (first world).1 (second world).1 ∧
      (first world).2 = (second world).2

variable
    {excused : Stop → Prop}
    {related : α → β → Prop}
    {further : γ → δ → Prop}

theorem Agree.refl (computation : RenderM α) :
    Agree excused Eq computation computation := by
  intro world
  refine .inr ⟨?_, rfl⟩
  cases (computation world).1 <;> rfl

theorem Agree.mono
    {related' : α → β → Prop}
    {first : RenderM α}
    {second : RenderM β}
    (agree : Agree excused related first second)
    (weaker :
      ∀ answer answer', related answer answer' → related' answer answer') :
    Agree excused related' first second := by
  intro world
  rcases agree world with stopped | ⟨same, worlds⟩
  · exact .inl stopped
  · refine .inr ⟨?_, worlds⟩
    cases outcome : (first world).1 <;> cases outcome' : (second world).1 <;>
      rw [outcome, outcome'] at same
    · exact same
    · exact same
    · exact same
    · exact weaker _ _ same

/--
Computations that agree in their answers are the same where the first is not
excused.
-/
theorem Agree.run_eq
    {first second : RenderM α}
    (agree : Agree excused Eq first second)
    {world : World}
    (notExcused : ∀ stop, (first world).1 = .error stop → ¬excused stop) :
    first world = second world := by
  rcases agree world with ⟨stop, stopped, isExcused⟩ | ⟨same, worlds⟩
  · exact absurd isExcused (notExcused stop stopped)
  · apply Prod.ext _ worlds
    cases outcome : (first world).1 <;> cases outcome' : (second world).1 <;>
      rw [outcome, outcome'] at same
    · exact congrArg _ same
    · exact same.elim
    · exact same.elim
    · exact congrArg _ same

theorem Agree.pure
    {first : α}
    {second : β}
    (answers : related first second) :
    Agree excused related (pure first) (pure second) :=
  fun _ => .inr ⟨answers, rfl⟩

theorem agree_throw (stop : Stop) :
    Agree excused related (throw stop : RenderM α) (throw stop : RenderM β) :=
  fun _ => .inr ⟨rfl, rfl⟩

theorem agree_throw_excused
    {stop : Stop}
    (isExcused : excused stop)
    (second : RenderM β) :
    Agree excused related (throw stop : RenderM α) second :=
  fun _ => .inl ⟨stop, rfl, isExcused⟩

/--
A computation that may refuse to start agrees with what it agrees with when it
does start.
-/
theorem agree_guard
    {guard : Prop}
    [Decidable guard]
    {stop : Stop}
    (isExcused : excused stop)
    {first : RenderM α}
    {second : RenderM β}
    (agree : guard → Agree excused related first second) :
    Agree excused related (if guard then first else throw stop) second := by
  by_cases holds : guard
  · rw [if_pos holds]
    exact agree holds
  · rw [if_neg holds]
    exact agree_throw_excused isExcused second

theorem Agree.bind
    {first : RenderM α}
    {second : RenderM β}
    {next : α → RenderM γ}
    {next' : β → RenderM δ}
    (agree : Agree excused related first second)
    (onward :
      ∀ answer answer',
        related answer answer' →
        Agree excused further (next answer) (next' answer')) :
    Agree excused further (first >>= next) (second >>= next') := by
  intro world
  have start := agree world
  rw [run_bind, run_bind]
  generalize first world = outcome at start ⊢
  generalize second world = outcome' at start ⊢
  rcases outcome with ⟨stop | answer, after⟩
  · rcases start with ⟨cause, stopped, isExcused⟩ | ⟨same, worlds⟩
    · cases stopped
      exact .inl ⟨stop, rfl, isExcused⟩
    · rcases outcome' with ⟨stop' | answer', after'⟩
      · cases same
        exact .inr ⟨rfl, worlds⟩
      · cases same
  · rcases start with ⟨cause, stopped, isExcused⟩ | ⟨same, worlds⟩
    · cases stopped
    · rcases outcome' with ⟨stop' | answer', after'⟩
      · cases same
      · cases worlds
        exact onward answer answer' same after

/-- Changing the answer of the second computation. -/
theorem Agree.then_pure
    {first : RenderM α}
    {second : RenderM β}
    {change : β → γ}
    {relatedTo : α → γ → Prop}
    (agree :
      Agree excused (fun answer answer' => relatedTo answer (change answer'))
        first second) :
    Agree excused relatedTo first
      (second >>= fun answer => Pure.pure (change answer)) := by
  intro world
  have ends := agree world
  rw [run_bind]
  generalize second world = outcome at ends ⊢
  rcases outcome with ⟨_ | _, after⟩
  · rcases ends with stopped | ⟨same, worlds⟩
    · exact .inl stopped
    · refine .inr ⟨?_, worlds⟩
      cases outcome : (first world).1 <;> rw [outcome] at same <;> exact same
  · rcases ends with stopped | ⟨same, worlds⟩
    · exact .inl stopped
    · refine .inr ⟨?_, worlds⟩
      cases outcome : (first world).1 <;> rw [outcome] at same <;> exact same

/-- The same computation before two that agree for every answer. -/
theorem Agree.bind_refl
    (first : RenderM α)
    {next : α → RenderM γ}
    {next' : α → RenderM δ}
    (onward : ∀ answer, Agree excused further (next answer) (next' answer)) :
    Agree excused further (first >>= next) (first >>= next') := by
  apply (Agree.refl first).bind
  rintro answer _ rfl
  exact onward answer

theorem Agree.withFrames
    {first second : RenderM α}
    (agree : Agree excused Eq first second)
    (frames : List Value) :
    Agree excused Eq (withFrames frames first) (withFrames frames second) := by
  intro world
  rcases agree
      { world with stack := frames.foldl ContextStack.push world.stack } with
    stopped | ⟨same, worlds⟩
  · exact .inl stopped
  · refine .inr ⟨same, ?_⟩
    exact congrArg
      (fun after : World =>
        { after with
          stack := frames.foldl (fun stack _ => stack.pop) after.stack })
      worlds

theorem Agree.mapM
    {first second : γ → RenderM α}
    (agree : ∀ item, Agree excused Eq (first item) (second item))
    (items : List γ) :
    Agree excused Eq (items.mapM first) (items.mapM second) := by
  induction items with
  | nil => exact Agree.refl _
  | cons item items ih =>
    rw [List.mapM_cons, List.mapM_cons]
    apply (agree item).bind
    rintro answer _ rfl
    apply ih.bind
    rintro answers _ rfl
    exact Agree.refl _

end RenderM

open RenderM

/-! ## What tags and sections stand for -/

/-- Two renderers agree on every template. -/
def RenderersAgree
    (excused : Stop → Prop)
    (first second : TemplateRenderer) : Prop :=
  ∀ template partials delimiters,
    Agree excused Eq (first template partials delimiters)
      (second template partials delimiters)

/-- Two renderers agree on every template that starts from an allowed pair. -/
def RenderersAgreeOn
    (allowed : Delimiters → Prop)
    (excused : Stop → Prop)
    (first second : TemplateRenderer) : Prop :=
  ∀ template partials delimiters,
    allowed delimiters →
    Agree excused Eq (first template partials delimiters)
      (second template partials delimiters)

variable
    {excused : Stop → Prop}
    {allowed : Delimiters → Prop}
    {first second : TemplateRenderer}

theorem RenderersAgree.on
    (renderers : RenderersAgree excused first second)
    (allowed : Delimiters → Prop) :
    RenderersAgreeOn allowed excused first second :=
  fun template partials delimiters _ => renderers template partials delimiters

theorem agree_interpolate
    (renderers : RenderersAgreeOn allowed excused first second)
    (standard : allowed .standard)
    (lambdas : Lambdas)
    (name : Text) :
    Agree excused Eq (interpolate lambdas first name)
      (interpolate lambdas second name) := by
  apply Agree.bind_refl
  rintro (_ | found)
  · exact Agree.refl _
  · apply Agree.bind_refl
    intro value
    split
    · apply Agree.bind_refl
      intro result
      apply Agree.bind_refl
      intro template
      exact renderers template [] .standard standard
    · exact Agree.refl _

theorem agree_includePartial
    (renderers : RenderersAgreeOn allowed excused first second)
    (standard : allowed .standard)
    (partials : Partials)
    (name indentation : Text) :
    Agree excused Eq (includePartial first partials name indentation)
      (includePartial second partials name indentation) := by
  unfold includePartial
  split
  · exact Agree.refl _
  · split
    · exact Agree.refl _
    · exact renderers _ partials .standard standard

theorem agree_renderItems
    (renderers : RenderersAgreeOn allowed excused first second)
    {delimiters : Delimiters}
    (isAllowed : allowed delimiters)
    (lambdas : Lambdas)
    (partials : Partials)
    (body : Text)
    (startsLine : Bool)
    (items : List Value) :
    Agree excused Eq
      (renderItems lambdas first partials delimiters body startsLine items)
      (renderItems lambdas second partials delimiters body startsLine
        items) := by
  have item (value : Value) :
      Agree excused Eq
        (renderItem lambdas first partials delimiters body startsLine value)
        (renderItem lambdas second partials delimiters body startsLine
          value) := by
    apply Agree.bind_refl
    intro frames
    apply
      (Agree.withFrames (renderers _ partials delimiters isAllowed) frames).bind
    rintro text _ rfl
    exact Agree.refl _
  apply (Agree.mapM item items).bind
  rintro texts _ rfl
  exact Agree.refl _

theorem agree_expandBody
    (renderers : RenderersAgreeOn allowed excused first second)
    {delimiters : Delimiters}
    (isAllowed : allowed delimiters)
    (lambdas : Lambdas)
    (partials : Partials)
    (kind : TokenKind)
    (name body : Text)
    (startsLine : Bool) :
    Agree excused Eq
      (expandBody lambdas first partials delimiters kind name body startsLine)
      (expandBody lambdas second partials delimiters kind name body
        startsLine) := by
  have items :=
    agree_renderItems renderers isAllowed lambdas partials body startsLine
  apply Agree.bind_refl
  intro value
  unfold expandFor
  split
  · exact items _
  · split
    · exact items []
    · apply Agree.bind_refl
      intro result
      split
      · exact renderers _ partials delimiters isAllowed
      · exact items _
    · exact items _

end Mustache
