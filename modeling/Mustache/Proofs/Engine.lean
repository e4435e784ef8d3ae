import Mustache.Engine
import Mustache.Proofs.Delimiters
import Mustache.Proofs.Verdict

/-!
# Templates that are kept

An engine checks a template before it keeps it, read from the pair that
templates start with.  A template that is rendered is read from that pair, too,
but one that is included is read from the standard pair, and of this reading the
check says nothing unless the two pairs are the same.  A kept template is
rendered without an error when the ones that it may include have no fault in the
standard reading (`Engine.renderNamed_of_kept`).
-/

namespace Mustache

/-- A pair that a text names holds no equals sign. -/
theorem Delimiters.Accepted.clean
    {delimiters : Delimiters}
    (accepted : delimiters.Accepted)
    (solid : delimiters.Solid) : delimiters.Clean := by
  rcases accepted with ⟨text, named⟩
  rcases (parse?_eq_some_iff.1 named).noSign with ⟨opening, closing⟩
  exact ⟨solid, by simp [opening, closing]⟩

namespace Engine

variable {engine next : Engine} {name source : String} {delimiters : Delimiters}

/--
Keep templates one after the other, except those that are not well formed.
-/
def addAll (engine : Engine) (calls : List (String × String)) : Engine :=
  calls.foldl
    (fun engine (name, source) => (engine.add name source).toOption.getD engine)
    engine

/--
Every template that is kept is well formed, read from the pair that templates
start with.
-/
def Checked (engine : Engine) : Prop :=
  ∀ name source, engine.templates.get? name = some source →
    validate source.toList engine.delimiters = .ok ()

theorem checked_withDelimiters (delimiters : Delimiters) :
    (standard.withDelimiters delimiters).Checked := by
  rintro name source ⟨⟩

theorem add_eq_ok (added : engine.add name source = .ok next) :
    validate source.toList engine.delimiters = .ok () ∧
    next =
      { engine with templates := engine.templates.insert name source } := by
  unfold add at added
  cases valid : validate source.toList engine.delimiters with
  | error error =>
    rw [valid] at added
    cases added
  | ok =>
    rw [valid] at added
    cases added
    exact ⟨rfl, rfl⟩

/--
Keeping one more template does not change the pair, and the check was passed by
it.
-/
theorem checked_add
    (checked : engine.Checked)
    (added : engine.add name source = .ok next) :
    next.Checked ∧ next.delimiters = engine.delimiters := by
  rcases add_eq_ok added with ⟨valid, rfl⟩
  refine ⟨fun other text found => ?_, rfl⟩
  by_cases same : name = other
  · subst same
    rw [Entries.get?_insert_self] at found
    cases found
    exact valid
  · rw [Entries.get?_insert_of_ne _ _ same] at found
    exact checked other text found

theorem checked_addAll
    (calls : List (String × String))
    (checked : engine.Checked) :
    (engine.addAll calls).Checked ∧
    (engine.addAll calls).delimiters = engine.delimiters := by
  induction calls generalizing engine with
  | nil => exact ⟨checked, rfl⟩
  | cons call rest ih =>
    rcases call with ⟨name, source⟩
    show
      (addAll ((engine.add name source).toOption.getD engine) rest).Checked ∧
      (addAll ((engine.add name source).toOption.getD engine) rest).delimiters =
        engine.delimiters
    cases added : engine.add name source with
    | error error => exact ih checked
    | ok next =>
      rcases checked_add checked added with ⟨nextChecked, same⟩
      rw [← same]
      exact ih nextChecked

/-! ## Rendering a template that is kept -/

/--
Render the template that is kept under a name, with a bound on how deep the
recursion goes.
-/
def renderNamedWithin
    (engine : Engine)
    (fuel : Nat)
    (name : String)
    (data : Json) : Except Stop Text :=
  match engine.templates.get? name with
  | some template =>
    let (value, store) := (Value.ofJson data).run .empty
    (interpretWithin .none fuel template.toList engine.templates
      engine.delimiters ⟨store, .ofRoot value⟩).1
  | none => .error (.failed (.templateNotFound name))

theorem renderNamed_eq_within
    (engine : Engine)
    (name : String)
    (data : Json) :
    engine.renderNamed name data =
      engine.renderNamedWithin fuelLimit name data :=
  rfl

/--
Read from the standard pair, a template passes the check, its set-delimiter tags
stand on one line, and the pairs that they install hold no blanks.
-/
structure Includable (source : Text) : Prop where
  valid : validate source .standard = .ok ()
  solid : ∀ pair ∈ pairsIn .standard source, pair.Solid
  inline : ∀ tag ∈ (survey .standard [] source).1, tag.SwitchesInline

theorem Includable.sound
    {source : Text}
    (includable : Includable source) :
    SoundPartial source where
  sound := fault_of_valid includable.valid
  clean pair member :=
    (accepted_of_pairsIn Delimiters.accepted_standard source pair member).clean
      (includable.solid pair member)
  inline := includable.inline

/--
A sound template without a fault has a text, with any structured data, or no
end.
-/
theorem outcome_of_sound
    {templates : Partials}
    {template : Text}
    (valid : validate template delimiters = .ok ())
    (sound : SoundTemplate templates delimiters template)
    (fuel : Nat)
    (data : Json) :
    let outcome := (interpretWithin .none fuel template templates delimiters
      ⟨(Value.ofJson data .empty).2, .ofRoot (Value.ofJson data .empty).1⟩).1
    (∃ text, outcome = .ok text) ∨ outcome = .error .endless := by
  have ends := settles_soundTemplate (plainData_ofJson data).values .none fuel
    (World.within_ofRoot (.inr .data)) sound _ rfl
  rw [fault_of_valid valid] at ends
  generalize interpretWithin .none fuel template templates delimiters _ =
    outcome at ends ⊢
  rcases outcome with ⟨stop | text, after⟩
  · cases stop with
    | failed error =>
      rcases ends.1 with ⟨reported, nothing, -⟩
      cases nothing
    | cutsCharacter => exact ends.1.elim
    | endless => exact .inr rfl
  · exact .inl ⟨text, rfl⟩

/--
A kept template is rendered with any structured data, unless rendering has no
end, if its tags install pairs without blanks.  It is read from the pair that
templates start with, but what it may include is read from the standard pair:
unless the two are the same, an included template has to pass the check in this
reading, too.
-/
theorem renderNamed_of_kept
    (accepted : delimiters.Accepted)
    (calls : List (String × String))
    {name source : String}
    (kept :
      ((standard.withDelimiters delimiters).addAll calls).templates.get? name =
        some source)
    (switches : ∀ pair ∈ pairsIn delimiters source.toList, pair.Solid)
    (includes :
      ∀ included text,
        MayInclude ((standard.withDelimiters delimiters).addAll calls).templates
          delimiters source.toList included →
        ((standard.withDelimiters delimiters).addAll calls).templates.get?
            included =
          some text →
        (delimiters ≠ .standard → validate text.toList .standard = .ok ()) ∧
          (∀ pair ∈ pairsIn .standard text.toList, pair.Solid) ∧
          ∀ tag ∈ (survey .standard [] text.toList).1, tag.SwitchesInline)
    (data : Json) :
    let engine := (standard.withDelimiters delimiters).addAll calls
    (∀ fuel, (∃ text, engine.renderNamedWithin fuel name data = .ok text) ∨
      engine.renderNamedWithin fuel name data = .error .endless) ∧
    engine.renderNamed name data =
      engine.renderNamedWithin fuelLimit name data := by
  intro engine
  rcases checked_addAll calls (checked_withDelimiters delimiters) with
    ⟨checked, same⟩
  have pair : engine.delimiters = delimiters := same
  have sound : SoundTemplate engine.templates delimiters source.toList :=
    { clean := fun pair member =>
        (accepted_of_pairsIn accepted source.toList pair member).clean
          (switches pair member)
      includes := fun included text through found => by
        rcases includes included text through found with ⟨valid, solid, inline⟩
        refine Includable.sound ⟨?_, solid, inline⟩
        by_cases isStandard : delimiters = .standard
        · rw [← isStandard, ← pair]
          exact checked included text found
        · exact valid isStandard }
  have valid : validate source.toList delimiters = .ok () := by
    rw [← pair]
    exact checked name source kept
  refine ⟨fun fuel => ?_, rfl⟩
  have found : engine.templates.get? name = some source := kept
  rw [renderNamedWithin, found, pair]
  exact outcome_of_sound valid sound fuel data

/--
A section that includes an indented template, which switches pairs and includes
another one.
-/
theorem renderNamed_of_kept_nested :
    let delimiters : Delimiters := ⟨['<'], ['>']⟩
    let calls :=
      [("q", "[\x7b\x7bx\x7d\x7d]\n"), ("t", "</s>"),
        ("p",
          "a\x7b\x7b!\n c \x7d\x7d\n \x7b\x7b@q\x7d\x7d\x7b\x7b=| |=\x7d\x7d|x|"),
        ("t", "<#s>\n  <@p>\n</s>")]
    let engine := (standard.withDelimiters delimiters).addAll calls
    let data :=
      Json.object [("s", .array [.bool true, .null]), ("x", .string "<")]
    delimiters.Accepted ∧
    engine.templates.get? "t" = some "<#s>\n  <@p>\n</s>" ∧
    (∀ fuel,
      (∃ text, engine.renderNamedWithin fuel "t" data = .ok text) ∨
      engine.renderNamedWithin fuel "t" data = .error .endless) := by
  intro delimiters calls engine data
  have accepted : delimiters.Accepted := ⟨"< >".toList, by decide +kernel⟩
  have kept : engine.templates.get? "t" = some "<#s>\n  <@p>\n</s>" := by
    decide +kernel
  refine ⟨accepted, kept,
    (renderNamed_of_kept accepted calls kept (by decide +kernel) ?_ data).1⟩
  intro included text _ found
  have each : ∀ entry ∈ engine.templates,
      validate entry.2.toList .standard = .ok () ∧
      (∀ pair ∈ pairsIn .standard entry.2.toList, pair.Solid) ∧
      ∀ tag ∈ (survey .standard [] entry.2.toList).1, tag.SwitchesInline := by
    decide +kernel
  rcases each _ (Entries.mem_of_get? found) with ⟨valid, solid, inline⟩
  exact ⟨fun _ => valid, solid, inline⟩

/--
A template that is kept as plain text is a section without an end when it is
included.
-/
theorem kept_template_unclosed :
    let engine := (standard.withDelimiters ⟨['<', '%'], ['%', '>']⟩).addAll
      [("p", "\x7b\x7b#a\x7d\x7d"), ("t", "<%>p%>")]
    engine.templates.keys = ["p", "t"] ∧
      engine.renderNamed "t" (.object []) =
        .error (.failed (.unclosedSection "\x7b\x7b#a\x7d\x7d".toList 1)) := by
  decide +kernel

end Engine

end Mustache
