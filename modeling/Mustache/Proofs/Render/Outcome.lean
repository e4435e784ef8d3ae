import Mustache.Proofs.Render.Agreement

/-!
# What a computation ends with

A computation meets a specification when, from every world that satisfies the
precondition, its answer satisfies one condition and its stop another, each
together with the world that is left.  Specifications go through binds, so they
are proved for small computations and combined.
-/

namespace Mustache

namespace RenderM

variable {α β : Type}

/--
From the worlds in `before`, an answer satisfies `answers` and a stop satisfies
`stops`.
-/
def Meets
    (before : World → Prop)
    (answers : α → World → Prop)
    (stops : Stop → World → Prop)
    (computation : RenderM α) : Prop :=
  ∀ world, before world →
    match computation world with
    | (.ok answer, after) => answers answer after
    | (.error stop, after) => stops stop after

variable
    {before : World → Prop}
    {answers : α → World → Prop}
    {stops : Stop → World → Prop}

theorem Meets.pure
    {answer : α}
    (holds : ∀ world, before world → answers answer world) :
    Meets before answers stops (pure answer) :=
  holds

theorem Meets.bind
    {further : β → World → Prop}
    {first : RenderM α}
    {next : α → RenderM β}
    (meets : Meets before answers stops first)
    (onward : ∀ answer, Meets (answers answer) further stops (next answer)) :
    Meets before further stops (first >>= next) := by
  intro world isBefore
  have ends := meets world isBefore
  rw [run_bind]
  generalize first world = outcome at ends ⊢
  rcases outcome with ⟨stop | answer, after⟩
  · exact ends
  · exact onward answer after ends

/-- Every computation meets the specification that says nothing. -/
theorem meets_trivial (computation : RenderM α) :
    Meets before (fun _ _ => True) (fun _ _ => True) computation := by
  intro world _
  rcases computation world with ⟨_ | _, _⟩ <;> exact True.intro

/--
What is known of the answers of a computation can be added to what relates them.
-/
theorem Agree.and_meets
    {excused : Stop → Prop}
    {related : α → β → Prop}
    {holds : α → Prop}
    {first : RenderM α}
    {second : RenderM β}
    (agree : Agree excused related first second)
    (meets :
      Meets (fun _ => True) (fun answer _ => holds answer) (fun _ _ => True)
        first) :
    Agree excused (fun answer answer' => related answer answer' ∧ holds answer)
      first second := by
  intro world
  have ends := meets world True.intro
  rcases agree world with stopped | ⟨same, worlds⟩
  · exact .inl stopped
  · refine .inr ⟨?_, worlds⟩
    generalize first world = outcome at ends same
    generalize second world = outcome' at same
    rcases outcome with ⟨stop | answer, after⟩ <;>
      rcases outcome' with ⟨stop' | answer', after'⟩
    · exact same
    · cases same
    · cases same
    · exact ⟨same, ends⟩

end RenderM

end Mustache
