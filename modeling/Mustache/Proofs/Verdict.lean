import Mustache.Proofs.Draft.Faults
import Mustache.Proofs.Reader.Faults
import Mustache.Proofs.Value.Finite

/-!
# Three verdicts on a template

A template is checked, inspected and rendered, and all three come to the same
verdict: they succeed, or they report the same fault with the same tag
(`verdicts_agree`).  A partial is only read when it is rendered, but one that
passes the check has no fault then either (`interpretWithin_of_valid`).

Delimiters that hold a blank or an equals sign are left out.  A blank could be
taken off with the line around a tag, and an equals sign stands at the edges of
a section's body.
-/

namespace Mustache

open RenderM

variable
    {store : Store}
    {data : Value}
    {template : Text}
    {delimiters : Delimiters}

theorem fault_of_valid (valid : validate template delimiters = .ok ()) :
    (survey delimiters [] template).2 = none := by
  have reported := validate_reports template delimiters
  rw [valid] at reported
  exact reported

/--
A template that passes the check is rendered, unless rendering has no end, with
partials that pass the check and data without lambdas and primitive conversions.
-/
theorem interpretWithin_of_valid
    {partials : Partials}
    (valid : validate template delimiters = .ok ())
    (clean : ∀ pair ∈ pairsIn delimiters template, pair.Clean)
    (validPartials :
      ∀ name source,
        partials.get? name = some source →
        validate source.toList .standard = .ok ())
    (cleanPartials :
      ∀ name source,
        partials.get? name = some source →
        ∀ pair ∈ pairsIn .standard source.toList, pair.Clean)
    (inlinePartials :
      ∀ name source,
        partials.get? name = some source →
        ∀ tag ∈ (survey .standard [] source.toList).1, tag.SwitchesInline)
    (plain : PlainData store data)
    (lambdas : Lambdas)
    (fuel : Nat) :
    (∃ text,
      (interpretWithin lambdas fuel template partials delimiters
          ⟨store, .ofRoot data⟩).1 =
        .ok text) ∨
    (interpretWithin lambdas fuel template partials delimiters
        ⟨store, .ofRoot data⟩).1 =
      .error .endless := by
  have sound : ∀ name source, partials.get? name = some source →
      SoundPartial source.toList := fun name source found =>
    ⟨fault_of_valid (validPartials name source found),
      cleanPartials name source found, inlinePartials name source found⟩
  have ends := settles_interpretWithin plain.values sound lambdas fuel
    (World.within_ofRoot (.inr .data)) clean _ rfl
  rw [fault_of_valid valid] at ends
  generalize interpretWithin lambdas fuel template partials delimiters
      ⟨store, .ofRoot data⟩ = outcome at ends ⊢
  rcases outcome with ⟨stop | text, after⟩
  · cases stop with
    | failed error =>
      rcases ends.1 with ⟨reported, nothing, -⟩
      cases nothing
    | cutsCharacter => exact ends.1.elim
    | endless => exact .inr rfl
  · exact .inl ⟨text, rfl⟩

/--
A partial with tags over several lines, indented, and a section whose body is
rendered twice.
-/
theorem interpretWithin_of_valid_indented :
    let store : Store :=
      ⟨#[[("s", .list [.bool true, .null]), ("x", .string "<é")]]⟩
    let data : Value := .map ⟨⟨0⟩, none⟩
    let template :=
      "<#s>\n <x>\n</s>\n  <>p>\n<=| |=>|x|".toList
    let partials : Partials :=
      [("p",
        "a\x7b\x7b!\n c \x7d\x7d\n\x7b\x7b=[ ]=\x7d\x7d\n[#x][ y\n][/x]\n")]
    let delimiters : Delimiters := ⟨['<'], ['>']⟩
    (∃ text,
      (interpretWithin .none 60 template partials delimiters
          ⟨store, .ofRoot data⟩).1 =
        .ok text) ∨
    (interpretWithin .none 60 template partials delimiters
        ⟨store, .ofRoot data⟩).1 =
      .error .endless := by
  intro store data template partials delimiters
  have only {name source : String} (found : partials.get? name = some source) :
      source =
        "a\x7b\x7b!\n c \x7d\x7d\n\x7b\x7b=[ ]=\x7d\x7d\n[#x][ y\n][/x]\n" := by
    cases List.mem_singleton.1 (Entries.mem_of_get? found)
    rfl
  apply interpretWithin_of_valid
  · decide +kernel
  · decide +kernel
  · intro name source found
    rw [only found]
    decide +kernel
  · intro name source found
    rw [only found]
    decide +kernel
  · intro name source found
    rw [only found]
    decide +kernel
  · exact plainData_of_isPlain (by decide) (by decide)

/-- A rendering ends with the fault, or with a text if there is none. -/
def RenderingReports
    (fault : Option Fault)
    (excuse : Prop) : Except Stop Text → Prop
  | .ok _ => fault = none
  | .error stop => stop.Reports fault excuse

/--
Checking, inspecting and rendering a template without partials report the same
fault, or all of them succeed.  Rendering has no end only with data that
contains itself.
-/
theorem verdicts_agree
    (clean : ∀ pair ∈ pairsIn delimiters template, pair.Clean)
    (plain : PlainData store data)
    (lambdas : Lambdas)
    {fuel : Nat}
    (enough : template.length < fuel) :
    ∃ fault : Option Fault,
      Reports fault (validate template delimiters) ∧
      Reports fault (inspect lambdas template data [] delimiters store).1 ∧
      RenderingReports fault (¬data.IsFinite store)
        (interpretWithin lambdas fuel template [] delimiters
          ⟨store, .ofRoot data⟩).1 := by
  refine ⟨(survey delimiters [] template).2,
    validate_reports template delimiters,
    inspect_reports lambdas template data [] delimiters store, ?_⟩
  have none : ∀ name source, Entries.get? ([] : Partials) name = some source →
      SoundPartial source.toList := by
    rintro name source ⟨⟩
  have ends := settles_interpretWithin plain.values none lambdas fuel
    (World.within_ofRoot (.inr .data)) clean _ rfl
  generalize interpretWithin lambdas fuel template [] delimiters
      ⟨store, .ofRoot data⟩ = outcome at ends ⊢
  rcases outcome with ⟨stop | text, after⟩
  · apply ends.1.mono
    rintro (⟨value, rfl | reached, unshown⟩ | spent | some)
    · cases unshown
    · exact fun finite =>
        Value.text?_of_isFinite (reached.isFinite finite) unshown
    · omega
    · exact absurd rfl some
  · exact ends.1

/--
A close tag that closes another section, in the body of one that is not
rendered.
-/
theorem verdicts_agree_unbalanced :
    let store : Store := ⟨#[[("s", .bool false), ("x", .string "<é")]]⟩
    let data : Value := .map ⟨⟨0⟩, none⟩
    let template := "<x>\n<#s>\n <=| |=>\n |^y| |/s|\n|/y|".toList
    let delimiters : Delimiters := ⟨['<'], ['>']⟩
    ∃ fault : Option Fault,
      Reports fault (validate template delimiters) ∧
      Reports fault (inspect .none template data [] delimiters store).1 ∧
      RenderingReports fault (¬data.IsFinite store)
        (interpretWithin .none 40 template [] delimiters
          ⟨store, .ofRoot data⟩).1 := by
  intro store data template delimiters
  apply verdicts_agree
  · decide +kernel
  · exact plainData_of_isPlain (by decide) (by decide)
  · decide +kernel

end Mustache
