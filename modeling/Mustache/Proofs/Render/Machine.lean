import Mathlib.Data.List.Forall2
import Mustache.Proofs.Render.Agreement
import Mustache.Render.Template

/-!
# Renderers that go node by node

A machine says how to begin with a template and what to do for the next node,
given a renderer for nested templates.  Running it on fuel ties the knot: nested
templates are rendered by the same machine with less fuel.

Two machines whose steps take related states to related states, whenever their
renderers agree, render alike (`Machine.agree_run`), and their states are
related each time the loop comes around (`Machine.related_heads`).
-/

namespace Mustache

open RenderM

/--
A way to render: how to begin with a template, and what to do for the next node.
-/
structure Machine (State : Type) where
  start : Text → Delimiters → State
  step : TemplateRenderer → Partials → State → RenderM (Text ⊕ State)

namespace Machine

variable {State State' : Type}

/-- Go on from a state to the end of its template. -/
def run (machine : Machine State) : Nat → Partials → State → RenderM Text
  | 0, _, _ => throw .endless
  | fuel + 1, partials, state => do
    let nested : TemplateRenderer := fun template partials delimiters =>
      machine.run fuel partials (machine.start template delimiters)
    match ← machine.step nested partials state with
    | .inl text => pure text
    | .inr state => machine.run fuel partials state

/-- Render a template. -/
def render (machine : Machine State) (fuel : Nat) : TemplateRenderer :=
  fun template partials delimiters =>
    machine.run fuel partials (machine.start template delimiters)

/--
The states that the loop goes through, each with the world at that moment.
-/
def heads (machine : Machine State) :
    Nat → Partials → State → World → List (State × World)
  | 0, _, _, _ => []
  | fuel + 1, partials, state, world =>
    (state, world) ::
      match machine.step (machine.render fuel) partials state world with
      | (.ok (.inr next), after) => heads machine fuel partials next after
      | _ => []

theorem run_succ
    (machine : Machine State)
    (fuel : Nat)
    (partials : Partials)
    (state : State) :
    machine.run (fuel + 1) partials state =
      machine.step (machine.render fuel) partials state >>= fun
        | .inl text => pure text
        | .inr state => machine.run fuel partials state :=
  rfl

/-- What a run does in a world: one step, and then the rest of the run. -/
theorem run_apply
    (machine : Machine State)
    (fuel : Nat)
    (partials : Partials)
    (state : State)
    (world : World) :
    machine.run (fuel + 1) partials state world =
      match machine.step (machine.render fuel) partials state world with
      | (.ok (.inl text), after) => (.ok text, after)
      | (.ok (.inr next), after) => machine.run fuel partials next after
      | (.error stop, after) => (.error stop, after) := by
  rw [run_succ, run_bind]
  rcases machine.step (machine.render fuel) partials state world with
    ⟨_ | _ | _, _⟩ <;> rfl

/--
What every step preserves of the world holds each time the loop comes around.
-/
theorem heads_preserve
    {machine : Machine State}
    {holds : World → Prop}
    {partials : Partials}
    (preserves :
      ∀ fuel state world,
        holds world →
        holds (machine.step (machine.render fuel) partials state world).2)
    (fuel : Nat)
    (state : State)
    {world : World}
    (isWorld : holds world) :
    ∀ head ∈ machine.heads fuel partials state world, holds head.2 := by
  induction fuel generalizing state world with
  | zero => simp [heads]
  | succ fuel ih =>
    refine List.forall_mem_cons.2 ⟨isWorld, ?_⟩
    have after := preserves fuel state world isWorld
    generalize machine.step (machine.render fuel) partials state world = outcome
      at after ⊢
    rcases outcome with ⟨stop | text | next, left⟩
    · simp
    · simp
    · exact ih next after

variable
    {excused : Stop → Prop}
    {related : State → State' → Prop}
    {first : Machine State}
    {second : Machine State'}

/--
Related states step to related states whenever the renderers for nested
templates agree.
-/
structure Simulates
    (excused : Stop → Prop)
    (related : State → State' → Prop)
    (first : Machine State)
    (second : Machine State') : Prop where
  start : ∀ template delimiters,
    related (first.start template delimiters) (second.start template delimiters)
  step :
    ∀ {nested nested' : TemplateRenderer},
      RenderersAgree excused nested nested' →
      ∀ partials {state state'},
        related state state' →
        Agree excused (Sum.LiftRel Eq related)
          (first.step nested partials state)
          (second.step nested' partials state')

/-- The same, for machines that are only ever started from allowed pairs. -/
structure SimulatesOn
    (allowed : Delimiters → Prop)
    (excused : Stop → Prop)
    (related : State → State' → Prop)
    (first : Machine State)
    (second : Machine State') : Prop where
  start : ∀ template delimiters, allowed delimiters →
    related (first.start template delimiters) (second.start template delimiters)
  step :
    ∀ {nested nested' : TemplateRenderer},
      RenderersAgreeOn allowed excused nested nested' →
      ∀ partials {state state'},
        related state state' →
        Agree excused (Sum.LiftRel Eq related)
          (first.step nested partials state)
          (second.step nested' partials state')

theorem Simulates.on (simulates : Simulates excused related first second) :
    SimulatesOn (fun _ => True) excused related first second where
  start template delimiters _ := simulates.start template delimiters
  step renderers partials _ _ states :=
    simulates.step
      (fun template partials delimiters =>
        renderers template partials delimiters True.intro)
      partials states

theorem SimulatesOn.agree_run
    {allowed : Delimiters → Prop}
    (simulates : SimulatesOn allowed excused related first second)
    (fuel : Nat)
    (partials : Partials)
    {state : State}
    {state' : State'}
    (states : related state state') :
    Agree excused Eq (first.run fuel partials state)
      (second.run fuel partials state') := by
  induction fuel generalizing partials state state' with
  | zero => exact agree_throw .endless
  | succ fuel ih =>
    have nested :
        RenderersAgreeOn allowed excused (first.render fuel)
          (second.render fuel) :=
      fun template partials delimiters isAllowed =>
        ih partials (simulates.start template delimiters isAllowed)
    rw [run_succ, run_succ]
    apply (simulates.step nested partials states).bind
    intro answer answer' same
    cases same with
    | inl texts =>
      cases texts
      exact Agree.refl _
    | inr states => exact ih partials states

theorem agree_run
    (simulates : Simulates excused related first second)
    (fuel : Nat)
    (partials : Partials)
    {state : State}
    {state' : State'}
    (states : related state state') :
    Agree excused Eq (first.run fuel partials state)
      (second.run fuel partials state') :=
  simulates.on.agree_run fuel partials states

theorem agree_render
    (simulates : Simulates excused related first second)
    (fuel : Nat) :
    RenderersAgree excused (first.render fuel) (second.render fuel) :=
  fun template partials delimiters =>
    agree_run simulates fuel partials (simulates.start template delimiters)

/--
A machine that heeds its renderer does with more fuel what it does, unless it
ran out of it.
-/
theorem agree_run_succ
    {machine : Machine State}
    (heeds : Simulates excused Eq machine machine)
    (endless : excused .endless)
    (fuel : Nat)
    (partials : Partials)
    (state : State) :
    Agree excused Eq (machine.run fuel partials state)
      (machine.run (fuel + 1) partials state) := by
  induction fuel generalizing partials state with
  | zero => exact agree_throw_excused endless _
  | succ fuel ih =>
    have nested :
        RenderersAgree excused (machine.render fuel)
          (machine.render (fuel + 1)) :=
      fun template partials delimiters =>
        ih partials (machine.start template delimiters)
    rw [run_succ, run_succ]
    apply (heeds.step nested partials rfl).bind
    intro answer answer' same
    cases same with
    | inl texts =>
      cases texts
      exact Agree.refl _
    | inr states =>
      cases states
      exact ih partials _

/-- A run that ends without an excused stop ends so with any more fuel. -/
theorem run_of_le
    {machine : Machine State}
    (heeds : Simulates excused Eq machine machine)
    (endless : excused .endless)
    {fuel more : Nat}
    (le : fuel ≤ more)
    {partials : Partials}
    {state : State}
    {world : World}
    (notExcused :
      ∀ stop,
        (machine.run fuel partials state world).1 = .error stop →
        ¬excused stop) :
    machine.run more partials state world =
      machine.run fuel partials state world := by
  induction le with
  | refl => rfl
  | step _ ih =>
    rw [← ih] at notExcused
    rw [← ih]
    exact
      ((agree_run_succ heeds endless _ partials state).run_eq notExcused).symm

/--
Unless the first run ends with an excused stop, the loops go through related
states.
-/
theorem related_heads
    (simulates : Simulates excused related first second)
    (fuel : Nat)
    (partials : Partials)
    {state : State}
    {state' : State'}
    (states : related state state')
    (world : World)
    (notExcused :
      ∀ stop,
        (first.run fuel partials state world).1 = .error stop → ¬excused stop) :
    List.Forall₂ (fun head head' => related head.1 head'.1 ∧ head.2 = head'.2)
      (first.heads fuel partials state world)
      (second.heads fuel partials state' world) := by
  induction fuel generalizing state state' world with
  | zero => exact .nil
  | succ fuel ih =>
    refine .cons ⟨states, rfl⟩ ?_
    have steps :=
      simulates.step (agree_render simulates fuel) partials states world
    rw [run_succ, run_bind] at notExcused
    generalize first.step (first.render fuel) partials state world = outcome
      at steps notExcused ⊢
    generalize second.step (second.render fuel) partials state' world = outcome'
      at steps ⊢
    rcases outcome with ⟨stop | answer, after⟩
    · rcases steps with ⟨cause, stopped, isExcused⟩ | ⟨same, -⟩
      · cases stopped
        exact absurd isExcused (notExcused stop rfl)
      · rcases outcome' with ⟨stop' | answer', after'⟩
        · exact .nil
        · cases same
    · rcases steps with ⟨cause, stopped, -⟩ | ⟨same, worlds⟩
      · cases stopped
      · rcases outcome' with ⟨stop' | answer', after'⟩
        · cases same
        · cases worlds
          cases same with
          | inl => exact .nil
          | inr states => exact ih states after notExcused

end Machine

end Mustache
