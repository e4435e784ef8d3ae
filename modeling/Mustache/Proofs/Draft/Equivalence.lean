import Mustache.Proofs.Draft.Simulation

/-!
# Rendering in place is rendering with two texts

The two renderers give the same text, or stop for the same cause, and leave the
same world, whenever no delimiter pair with a blank comes into effect, be it in
the template, in a partial, in a section's body or in a template that a lambda
returned.  Each time the loop comes around, the buffer holds the two texts, cut
at the cursor, and no other mark of the buffer is live.

Which pairs come into effect depends on the data.  The cautious renderer looks
at every pair before it is used and stops where one has a blank; a run is solid
when the cautious renderer does not stop there.  No other renderer with two
texts stops for that cause.
-/

namespace Mustache

open RenderM

/--
The renderer with two texts that stops before a pair with a blank is used.
-/
def Draft.cautious (lambdas : Lambdas) : Machine (Draft × Delimiters) where
  start template delimiters := (ofText template, delimiters)
  step render partials state :=
    if ∀ pair ∈ pairsAtNext state.1.unread state.2, pair.Solid then
      step lambdas render partials state
    else
      throw .cutsCharacter

/--
Every pair that comes into effect in a run is solid, in nested templates too.
-/
def SolidRun
    (lambdas : Lambdas)
    (fuel : Nat)
    (template : Text)
    (partials : Partials)
    (delimiters : Delimiters)
    (world : World) : Prop :=
  ((Draft.cautious lambdas).render fuel template partials delimiters world).1 ≠
    .error .cutsCharacter

instance
    (lambdas : Lambdas)
    (fuel : Nat)
    (template : Text)
    (partials : Partials)
    (delimiters : Delimiters)
    (world : World) :
    Decidable (SolidRun lambdas fuel template partials delimiters world) :=
  inferInstanceAs (Decidable (_ ≠ _))

theorem cautious_simulates_buffer (lambdas : Lambdas) :
    Machine.Simulates (· = .cutsCharacter) HoldsAlike (Draft.cautious lambdas)
      (bufferMachine lambdas) where
  start template _ := ⟨Reader.holds_ofText template, rfl⟩
  step := by
    rintro nested nested' renderers partials ⟨draft, _⟩ ⟨reader, delimiters⟩
      ⟨holds, rfl⟩
    show
      Agree _ _
        (if ∀ pair ∈ pairsAtNext draft.unread delimiters, pair.Solid then
            Draft.step lambdas nested partials (draft, delimiters)
          else
            throw .cutsCharacter)
        _
    apply agree_guard (by rfl)
    intro solid
    exact agree_step (renderers.on fun _ => True) True.intro True.intro lambdas
      partials holds (inked_of_pairsAtNext solid)

theorem cautious_simulates_draft (lambdas : Lambdas) :
    Machine.Simulates (· = .cutsCharacter) Eq (Draft.cautious lambdas)
      (Draft.machine lambdas) where
  start _ _ := rfl
  step := by
    rintro nested nested' renderers partials state _ rfl
    show
      Agree _ _
        (if ∀ pair ∈ pairsAtNext state.1.unread state.2, pair.Solid then
            Draft.step lambdas nested partials state
          else
            throw .cutsCharacter)
        _
    apply agree_guard (by rfl)
    intro _
    apply (Draft.agree_step renderers lambdas partials state).mono
    rintro (text | next) _ rfl
    · exact .inl rfl
    · exact .inr rfl

variable
    {lambdas : Lambdas}
    {fuel : Nat}
    {template : Text}
    {partials : Partials}
    {delimiters : Delimiters}
    {world : World}

/-- A solid run in place is the run of the cautious renderer. -/
theorem SolidRun.eq_cautious
    (solid : SolidRun lambdas fuel template partials delimiters world) :
    interpretWithin lambdas fuel template partials delimiters world =
      (Draft.cautious lambdas).render fuel template partials delimiters
        world := by
  rw [interpretWithin_eq_render]
  refine
    ((Machine.agree_render (cautious_simulates_buffer lambdas) fuel template
      partials delimiters).run_eq ?_).symm
  rintro stop stopped rfl
  exact solid stopped

/-- Their loops go through the same drafts. -/
theorem SolidRun.related_heads
    (solid : SolidRun lambdas fuel template partials delimiters world) :
    List.Forall₂
      (fun head head' => HoldsAlike head.1 head'.1 ∧ head.2 = head'.2)
      ((Draft.cautious lambdas).heads fuel partials
        (Draft.ofText template, delimiters) world)
      ((bufferMachine lambdas).heads fuel partials
        (Reader.ofText template, delimiters) world) := by
  have simulates := cautious_simulates_buffer lambdas
  apply Machine.related_heads simulates fuel partials
    (simulates.start template delimiters) world
  rintro stop stopped rfl
  exact solid stopped

/--
Rendering in place gives what rendering with two texts gives.  At each head of
the loop the buffer holds what was written and what is unread, the cursor stands
between the two, and it is the only mark that is live.
-/
theorem interpretWithin_eq_draft
    (solid : SolidRun lambdas fuel template partials delimiters world) :
    interpretWithin lambdas fuel template partials delimiters world =
      (Draft.machine lambdas).render fuel template partials delimiters world ∧
    List.Forall₂
      (fun (head : (Reader × Delimiters) × World)
          (head' : (Draft × Delimiters) × World) =>
        head.1.1.buffer.text = head'.1.1.written ++ head'.1.1.unread ∧
        head.1.1.position = head'.1.1.written.byteSize ∧
        (∀ mark,
          head.1.1.buffer.livePosition? mark ≠ none ↔ mark = head.1.1.cursor) ∧
        head.1.1.line = head'.1.1.line ∧
        head.1.2 = head'.1.2 ∧
        head.2 = head'.2)
      ((bufferMachine lambdas).heads fuel partials
        (Reader.ofText template, delimiters) world)
      ((Draft.machine lambdas).heads fuel partials
        (Draft.ofText template, delimiters) world) := by
  have notExcused :
      ∀ stop,
        ((Draft.cautious lambdas).render fuel template partials delimiters
            world).1 =
          .error stop →
        ¬stop = .cutsCharacter := by
    rintro stop stopped rfl
    exact solid stopped
  have inPlace := cautious_simulates_buffer lambdas
  have withTexts := cautious_simulates_draft lambdas
  have states : HoldsAlike (Draft.ofText template, delimiters)
      (Reader.ofText template, delimiters) :=
    inPlace.start template delimiters
  have sameDrafts :=
    Machine.related_heads withTexts fuel partials rfl world notExcused
  have held :=
    (Machine.related_heads inPlace fuel partials states world notExcused).flip
  constructor
  · rw [interpretWithin_eq_render]
    have first :=
      (Machine.agree_run inPlace fuel partials states).run_eq notExcused
    have second :=
      (Machine.agree_run withTexts fuel partials rfl).run_eq notExcused
    exact first.symm.trans second
  · have same :
        (Draft.cautious lambdas).heads fuel partials
            (Draft.ofText template, delimiters) world =
          (Draft.machine lambdas).heads fuel partials
            (Draft.ofText template, delimiters) world := by
      rw [← List.forall₂_eq_eq_eq]
      exact sameDrafts.imp fun _ _ alike => Prod.ext alike.1 alike.2
    rw [← same]
    apply held.imp
    rintro ⟨⟨reader, pair⟩, after⟩ ⟨⟨draft, pair'⟩, after'⟩
      ⟨⟨holds, pairs⟩, worlds⟩
    refine ⟨holds.standing.text_eq, holds.standing.position_eq, ?_,
      holds.line_eq, pairs, worlds.symm⟩
    intro mark
    constructor
    · intro live
      apply Decidable.byContradiction
      intro other
      exact live (holds.only mark other)
    · rintro rfl
      have live :
          reader.buffer.livePosition? reader.cursor =
            some draft.written.byteSize :=
        holds.standing.cursor_eq
      simp [live]

/--
A run through a standalone section, a change of delimiters and an indented
partial.
-/
theorem interpretWithin_eq_draft_nested :
    let world : World :=
      ⟨⟨#[[("s", .list [.bool true, .null]), ("x", .string "<é")]]⟩,
        .ofRoot (.map ⟨⟨0⟩, none⟩)⟩
    let template :=
      "é\n  <%#s%>  \r\n <%x%>\n<%.x%>  <%/s%>\n<%=| |=%>\n |>p|\n|s|".toList
    let partials : Partials :=
      [("p", "a\n\x7b\x7b^y\x7d\x7db\x7b\x7b/y\x7d\x7d\n")]
    let delimiters : Delimiters := ⟨"<%".toList, "%>".toList⟩
    SolidRun .none 20 template partials delimiters world ∧
      interpretWithin .none 20 template partials delimiters world =
        (Draft.machine .none).render 20 template partials delimiters world := by
  intro world template partials delimiters
  have solid : SolidRun .none 20 template partials delimiters world := by
    decide +kernel
  exact ⟨solid, (interpretWithin_eq_draft solid).1⟩

end Mustache
