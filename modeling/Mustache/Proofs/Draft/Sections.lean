import Mustache.Proofs.Draft.Dotted

/-!
# A section or its inverse

A section over text repeats the text once for each item of a list, and shows it
once for any other value that is truthy.  The inverted section shows the text
just if the section does not (`interpretWithin_section_or_inverse`).  How often
is a matter of the value alone (`iterations`): a body of text is rendered to
itself in every world, whatever frames the items put on the stack, and nothing
is cut off a body with solid edges.
-/

namespace Mustache

open RenderM

/--
How often a section is rendered for the value of its name, if that is no lambda.
-/
def iterations : Option Value → Nat
  | none => 0
  | some (.list items) => items.length
  | some value => if value.isTruthy then 1 else 0

/--
How often a kind of section is rendered, given how often a regular one would be.
-/
def SectionForm.times : SectionForm → Nat → Nat
  | regular, count => count
  | inverted, count => if count = 0 then 1 else 0

theorem length_itemsOf (value : Value) :
    (itemsOf value).length = iterations (some value) := by
  cases value with
  | list items => rfl
  | _ =>
    simp only [itemsOf, iterations]
    split <;> rfl

/--
A value hides an inverted section just if it lets a regular one be rendered.
-/
theorem hidesInverted_iff (value : Option Value) :
    hidesInverted value = true ↔ iterations value ≠ 0 := by
  rcases value with _ | value
  · simp [hidesInverted, iterations]
  · cases value with
    | list items => simp [hidesInverted, iterations, Value.isTruthy]
    | _ =>
      simp only [hidesInverted, iterations]
      split <;> simp_all

section

variable
    {lambdas : Lambdas}
    {render : TemplateRenderer}
    {partials : Partials}
    {delimiters : Delimiters}
    {name body : Text}
    {startsLine : Bool}

/--
A section's name stands for a value or for none, and nothing stops on the way.
-/
theorem sectionValue_run
    (lambdas : Lambdas)
    (name body : Text)
    (world : World) :
    ∃ value after,
      sectionValue lambdas name body world = (.ok value, after) := by
  rw [sectionValue, run_bind, resolve_run]
  generalize world.stack.resolve lambdas (Name.ofText name) _ world.store =
    resolved
  rcases resolved with ⟨_ | found, store⟩
  · exact ⟨none, _, rfl⟩
  · exact ⟨_, _, rfl⟩

section

variable
    (rendered :
      ∀ world,
        render (guarded body startsLine) partials delimiters world =
          (.ok (guarded body startsLine), world))
include rendered

/-- A body that is rendered to itself comes out once for each item. -/
theorem mapM_renderItem_of_itself
    (items : List Value)
    (world : World) :
    ∃ after,
      items.mapM (renderItem lambdas render partials delimiters body startsLine)
          world =
        (.ok (List.replicate items.length body), after) := by
  induction items generalizing world with
  | nil => exact ⟨world, rfl⟩
  | cons item rest ih =>
    rcases framesOf_run lambdas item world.store world.stack with
      ⟨frames, called, isCalled⟩
    have once :=
      renderItem_run isCalled (rendered ⟨called, frames.foldl _ world.stack⟩)
    rcases ih ⟨called, world.stack⟩ with ⟨after, isRest⟩
    refine ⟨after, ?_⟩
    rw [List.mapM_cons, run_bind, once]
    simp only [Except.map, unguarded_guarded, run_bind, isRest]
    rfl

theorem renderItems_of_itself
    (items : List Value)
    (world : World) :
    ∃ after,
      renderItems lambdas render partials delimiters body startsLine items
          world =
        (.ok (List.replicate items.length body).flatten, after) := by
  rcases mapM_renderItem_of_itself rendered items world with ⟨after, isRun⟩
  exact ⟨after, by rw [renderItems, run_bind, isRun]; rfl⟩

/--
For a value that is no lambda, a section shows such a body as often as the value
says.
-/
theorem expandFor_of_itself
    (form : SectionForm)
    {value : Option Value}
    (notLambda : ∀ lambda, value ≠ some (.lambda lambda))
    (world : World) :
    ∃ after,
      expandFor lambdas render partials delimiters form.kind body startsLine
          value world =
        (.ok (List.replicate (form.times (iterations value)) body).flatten,
          after) := by
  cases form with
  | regular =>
    have isItems :
        ∃ items,
          items.length = iterations value ∧
          expandFor lambdas render partials delimiters .opener body startsLine
              value =
            renderItems lambdas render partials delimiters body startsLine
              items := by
      rcases value with _ | value
      · exact ⟨[], rfl, rfl⟩
      · refine ⟨itemsOf value, length_itemsOf value, ?_⟩
        cases value with
        | lambda lambda => exact absurd rfl (notLambda lambda)
        | _ => rfl
    rcases isItems with ⟨items, count, isExpanded⟩
    rw [SectionForm.kind, isExpanded, SectionForm.times, ← count]
    exact renderItems_of_itself rendered items world
  | inverted =>
    have count :
        (if hidesInverted value then [] else [Value.bool true]).length =
          SectionForm.inverted.times (iterations value) := by
      by_cases none : iterations value = 0
      · rw [if_neg fun hides => (hidesInverted_iff value).1 hides none,
          SectionForm.times, if_pos none]
        rfl
      · rw [if_pos ((hidesInverted_iff value).2 none), SectionForm.times,
          if_neg none]
        rfl
    rw [← count]
    exact renderItems_of_itself rendered _ world

end

end

namespace Draft

variable {lambdas : Lambdas} {name body : Text}

/-- Text without opening braces is rendered to itself. -/
theorem render_plain
    (noBrace : '{' ∉ body)
    (nonempty : body ≠ [])
    (fuel : Nat)
    (partials : Partials)
    (world : World) :
    (cautious lambdas).render (fuel + 2) body partials .standard world =
      (.ok body, world) := by
  have alone := scanNode_plain noBrace (.inl rfl) nonempty
  rw [List.append_nil] at alone
  exact render_block alone (fun _ => trimAround_of_not_takesLine rfl) fun _ =>
    rfl

/--
A section over text with solid edges shows the text as often as the value of its
name says.
-/
theorem render_section
    (form : SectionForm)
    (fits : name.FitsModified)
    (noBrace : '{' ∉ body)
    {first last : Char}
    (isFirst : body.head? = some first)
    (solidFirst : Text.isBlank first = false)
    (isLast : body.getLast? = some last)
    (solidLast : Text.isBlank last = false)
    {value : Option Value}
    {world between : World}
    (isValue : sectionValue lambdas name body world = (.ok value, between))
    (notLambda : ∀ lambda, value ≠ some (.lambda lambda))
    (partials : Partials)
    (fuel : Nat) :
    ∃ after,
      (cautious lambdas).render (fuel + 3) (form.write name body) partials
          .standard world =
        (.ok (List.replicate (form.times (iterations value)) body).flatten,
          after) := by
  have nonempty : body ≠ [] := by
    rintro rfl
    cases isFirst
  have noBraceGuarded : '{' ∉ guarded body false := by
    simpa [guarded] using noBrace
  have rendered (world : World) :
      (cautious lambdas).render (fuel + 2) (guarded body false) partials
          .standard world =
        (.ok (guarded body false), world) :=
    render_plain noBraceGuarded (List.cons_ne_nil _ _) fuel partials world
  rcases expandFor_of_itself rendered form notLambda between with
    ⟨after, isExpanded⟩
  have alone := form.scanNode_write fits noBrace nonempty []
  rw [List.append_nil] at alone
  refine ⟨after, render_block alone (fun draft => ?_) fun draft => ?_⟩
  · simp only
      [trimAround, trimTags_of_solid isFirst solidFirst isLast solidLast draft]
  · simp only [blockText,
      trimTags_of_solid isFirst solidFirst isLast solidLast draft,
      Option.isSome_none, SectionForm.opener]
    rw [expandBody, run_bind, isValue]
    exact isExpanded

end Draft

/--
Sections and inverted sections over one name complement each other, when the
name stands for no lambda: text with solid edges is shown by the one as often as
the value says, and by the other once if that is never.
-/
theorem interpretWithin_section_or_inverse
    {name body : Text}
    (fits : name.FitsModified)
    (noBrace : '{' ∉ body)
    {first last : Char}
    (isFirst : body.head? = some first)
    (solidFirst : Text.isBlank first = false)
    (isLast : body.getLast? = some last)
    (solidLast : Text.isBlank last = false)
    (lambdas : Lambdas)
    (partials : Partials)
    (world : World)
    {fuel : Nat}
    (enough : 3 ≤ fuel) :
    ∃ value after,
      sectionValue lambdas name body world = (.ok value, after) ∧
      ((∀ lambda, value ≠ some (.lambda lambda)) →
        (interpretWithin lambdas fuel (SectionForm.regular.write name body)
              partials .standard world).1 =
            .ok (List.replicate (iterations value) body).flatten ∧
          (interpretWithin lambdas fuel (SectionForm.inverted.write name body)
              partials .standard world).1 =
            .ok (if iterations value = 0 then body else [])) := by
  obtain ⟨less, rfl⟩ : ∃ less, fuel = less + 3 := ⟨fuel - 3, by omega⟩
  rcases sectionValue_run lambdas name body world with ⟨value, after, isValue⟩
  refine ⟨value, after, isValue, fun notLambda => ?_⟩
  have shown (form : SectionForm) :
      (interpretWithin lambdas (less + 3) (form.write name body) partials
          .standard world).1 =
        .ok (List.replicate (form.times (iterations value)) body).flatten := by
    rcases Draft.render_section form fits noBrace isFirst solidFirst isLast
        solidLast isValue notLambda partials less with ⟨left, rendered⟩
    rw [Draft.interpretWithin_of_cautious rendered fun stopped => by
        cases stopped]
  refine ⟨shown .regular, (shown .inverted).trans ?_⟩
  simp only [SectionForm.times]
  split <;> simp

/-- Over the innermost frame, a list with a lambda among its items. -/
theorem interpretWithin_section_or_inverse_list :
    let world : World :=
      ⟨.empty, ⟨.null, [.list [.null, .lambda ⟨⟨0⟩, none, none⟩]]⟩⟩
    Text.FitsModified ['.'] ∧
    '{' ∉ "a = b".toList ∧
    "a = b".toList.head? = some 'a' ∧
    Text.isBlank 'a' = false ∧
    "a = b".toList.getLast? = some 'b' ∧
    Text.isBlank 'b' = false ∧
    (interpretWithin .none 3 (SectionForm.regular.write ['.'] "a = b".toList) []
        .standard world).1 =
      .ok "a = ba = b".toList ∧
    (interpretWithin .none 3 (SectionForm.inverted.write ['.'] "a = b".toList)
        [] .standard world).1 =
      .ok [] := by
  intro world
  have fits : Text.FitsModified ['.'] := ⟨by decide, by decide⟩
  have noBrace : '{' ∉ "a = b".toList := by decide
  rcases interpretWithin_section_or_inverse fits noBrace rfl (by decide) rfl
      (by decide) .none [] world (Nat.le_refl 3) with
    ⟨value, after, isValue, shown⟩
  have isList : (sectionValue .none ['.'] "a = b".toList world).1 =
      .ok (some (.list [.null, .lambda ⟨⟨0⟩, none, none⟩])) := rfl
  rw [isValue] at isList
  cases isList
  rcases shown (fun lambda isLambda => by cases isLambda) with
    ⟨regular, inverted⟩
  exact ⟨fits, by decide, rfl, by decide, rfl, by decide, regular, inverted⟩

end Mustache
