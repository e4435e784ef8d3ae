import Mustache.Proofs.Delimiters
import Mustache.Proofs.Draft.Progress
import Mustache.Proofs.Draft.Simulation

/-!
# Replacements between characters

Every replacement in a buffer has to start and end between two characters.  It
does as long as the places it goes by are those of the text that is there.  The
line of a close tag is removed first.  Where the last line of the opener is
blank, the search for the indentation goes on through the end of the opener, and
that end is cut off along with it: the mark there is then a place in other text,
and it may be inside a character (`cutsCharacter_of_blank_opener`).

Nothing else goes wrong.  From a pair that a text can name, no replacement cuts
through a character unless a section is met whose opener ends in a blank line
(`interpretWithin_ne_cutsCharacter`).  For an opener to do so, its closing
delimiter has to be blank and a line break has to stand in the tag.
-/

namespace Mustache

open RenderM

/-- The last line of a section's opener is not blank. -/
def Block.OpensInked : Block → Prop
  | leaf _ => True
  | paired opener _ _ => Text.indentationAtEnd? opener.source.reverse = none

instance (block : Block) : Decidable block.OpensInked :=
  match block with
  | .leaf _ => inferInstanceAs (Decidable True)
  | .paired opener _ _ =>
    inferInstanceAs
      (Decidable (Text.indentationAtEnd? opener.source.reverse = none))

/-- The next block of a text, if there is one. -/
def blockAtNext (unread : Text) (delimiters : Delimiters) : List Block :=
  match scanNode delimiters unread with
  | .found _ block _ _ => [block]
  | _ => []

/--
From a pair that a text can name, it takes no more than the opener for the tags
to be inked.
-/
theorem inked_of_accepted
    {unread : Text}
    {delimiters : Delimiters}
    (accepted : delimiters.Accepted)
    (inked : ∀ block ∈ blockAtNext unread delimiters, block.OpensInked)
    (skipped : Text)
    (block : Block)
    (after : Delimiters)
    (rest : Text)
    (result : scanNode delimiters unread = .found skipped block after rest) :
    block.Inked := by
  have opens : block.OpensInked := inked block (by simp [blockAtNext, result])
  cases block with
  | leaf piece => exact True.intro
  | paired opener body closer =>
    have closes :=
      (accepted_of_scanNode result accepted).2 opener body closer rfl
    exact ⟨opens, closes⟩

/--
The renderer with two texts that stops before a section whose opener ends in a
blank line.
-/
def Draft.wary (lambdas : Lambdas) : Machine (Draft × Delimiters) where
  start template delimiters := (ofText template, delimiters)
  step render partials state :=
    if ∀ block ∈ blockAtNext state.1.unread state.2, block.OpensInked then
      step lambdas render partials state
    else
      throw .cutsCharacter

/--
No section of a run has an opener that ends in a blank line, in nested templates
neither.
-/
def InkedRun
    (lambdas : Lambdas)
    (fuel : Nat)
    (template : Text)
    (partials : Partials)
    (delimiters : Delimiters)
    (world : World) : Prop :=
  ((Draft.wary lambdas).render fuel template partials delimiters world).1 ≠
    .error .cutsCharacter

instance
    (lambdas : Lambdas)
    (fuel : Nat)
    (template : Text)
    (partials : Partials)
    (delimiters : Delimiters)
    (world : World) :
    Decidable (InkedRun lambdas fuel template partials delimiters world) :=
  inferInstanceAs (Decidable (_ ≠ _))

/--
The buffer of a reader holds a draft, and the same pair is in effect, which a
text can name.
-/
def HoldsAccepted
    (state : Draft × Delimiters)
    (state' : Reader × Delimiters) : Prop :=
  HoldsAlike state state' ∧ state.2.Accepted

/--
The pair in effect after a step is one that a text can name if that before it
is.
-/
theorem Draft.Advances.accepted
    {draft draft' : Draft}
    {delimiters after : Delimiters}
    (accepted : delimiters.Accepted)
    (advances : draft.Advances delimiters (.inr (draft', after))) :
    after.Accepted := by
  rcases advances with ⟨skipped, block, rest, text, result, -⟩
  exact (accepted_of_scanNode result accepted).1

theorem wary_simulates_buffer (lambdas : Lambdas) :
    Machine.SimulatesOn Delimiters.Accepted (· = .cutsCharacter) HoldsAccepted
      (Draft.wary lambdas) (bufferMachine lambdas) where
  start template _ accepted := ⟨⟨Reader.holds_ofText template, rfl⟩, accepted⟩
  step := by
    rintro nested nested' renderers partials ⟨draft, _⟩ ⟨reader, delimiters⟩
      ⟨⟨holds, rfl⟩, accepted⟩
    show
      Agree _ _
        (if ∀ block ∈ blockAtNext draft.unread delimiters, block.OpensInked then
            Draft.step lambdas nested partials (draft, delimiters)
          else
            throw .cutsCharacter)
        _
    apply agree_guard (by rfl)
    intro inked
    have steps :=
      agree_step renderers Delimiters.accepted_standard accepted lambdas
        partials holds (inked_of_accepted accepted inked)
    have advances := Draft.meets_step lambdas nested partials draft delimiters
    apply (steps.and_meets advances).mono
    rintro (text | ⟨draft', after⟩) answer' ⟨alike, advanced⟩
    · cases alike with
      | inl texts => exact .inl texts
    · cases alike with
      | inr held => exact .inr ⟨held, advanced.accepted accepted⟩

variable
    {lambdas : Lambdas}
    {fuel : Nat}
    {template : Text}
    {partials : Partials}
    {delimiters : Delimiters}
    {world : World}

/--
Every replacement falls between two characters, whatever the data, the lambdas
and the partials are, unless a section is met whose opener ends in a blank line.
-/
theorem interpretWithin_ne_cutsCharacter
    (accepted : delimiters.Accepted)
    (inked : InkedRun lambdas fuel template partials delimiters world) :
    (interpretWithin lambdas fuel template partials delimiters world).1 ≠
      .error .cutsCharacter := by
  have simulates := wary_simulates_buffer lambdas
  have states : HoldsAccepted (Draft.ofText template, delimiters)
      (Reader.ofText template, delimiters) :=
    simulates.start template delimiters accepted
  have notExcused :
      ∀ stop,
        ((Draft.wary lambdas).run fuel partials
            (Draft.ofText template, delimiters) world).1 =
          .error stop →
        ¬stop = .cutsCharacter := by
    rintro stop stopped rfl
    exact inked stopped
  have same :
      (Draft.wary lambdas).run fuel partials (Draft.ofText template, delimiters)
          world =
        (bufferMachine lambdas).run fuel partials
          (Reader.ofText template, delimiters) world :=
    (simulates.agree_run fuel partials states).run_eq notExcused
  rw [interpretWithin_eq_render]
  intro cuts
  exact inked ((congrArg Prod.fst same).trans cuts)

/--
A pair with a control character, in tags with line breaks and around characters
of two bytes.
-/
theorem interpretWithin_ne_cutsCharacter_control :
    let template :=
      "é#\nx\u0002\nü\n é/x\u0002\né!\n\u0002é=é\u0003 <=\u0002".toList
    let delimiters : Delimiters := ⟨['é'], ['\u0002']⟩
    let world : World := ⟨⟨#[[("x", .bool true)]]⟩, .ofRoot (.map ⟨⟨0⟩, none⟩)⟩
    InkedRun .none 20 template [] delimiters world ∧
    (interpretWithin .none 20 template [] delimiters world).1 ≠
      .error .cutsCharacter := by
  intro template delimiters world
  have accepted : delimiters.Accepted := ⟨delimiters.written, by decide⟩
  have inked : InkedRun .none 20 template [] delimiters world := by
    decide +kernel
  exact ⟨inked, interpretWithin_ne_cutsCharacter accepted inked⟩

/--
The opener ends in a blank line, since its closing delimiter is a control
character.  The indentation of the close tag is sought and cut off across the
end of the opener.
-/
theorem cutsCharacter_of_blank_opener :
    let template := "é#\n\u0002 é/\u0002\n".toList
    let delimiters : Delimiters := ⟨['é'], ['\u0002']⟩
    let world : World := ⟨⟨#[[]]⟩, .ofRoot (.map ⟨⟨0⟩, none⟩)⟩
    delimiters.Accepted ∧
    (interpretWithin .none 20 template [] delimiters world).1 =
      .error .cutsCharacter := by
  intro template delimiters world
  exact ⟨⟨delimiters.written, by decide⟩, by decide +kernel⟩

end Mustache
