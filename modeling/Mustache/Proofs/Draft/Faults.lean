import Mustache.Proofs.Draft.Blocks
import Mustache.Proofs.Scan.Guard
import Mustache.Proofs.Scan.Indent

/-!
# Rendering reports the fault of a template

Rendering reads a template bit by bit, and reads the bodies of its sections
again, cut and guarded.  With plain data it still stops for the fault that a
survey of the template finds, and only for that one: a body has no fault of its
own once its close tag was found, and an indented partial has none if the
partial has none.

The induction is on the fuel.  What carries it is that the rest of a template,
after each step, has the fault that the template had (`Draft.settles_soundRun`).
Only the partials that the template may include have to be sound, those that a
tag of it names and those that they may include in their turn (`MayInclude`).
-/

namespace Mustache

open RenderM

/--
A partial without a fault, whose pairs are clean, with set-delimiter tags on one
line.
-/
structure SoundPartial (source : Text) : Prop where
  sound : (survey .standard [] source).2 = none
  clean : ∀ pair ∈ pairsIn .standard source, pair.Clean
  inline : ∀ piece ∈ (survey .standard [] source).1, piece.SwitchesInline

/-- The fault is reported, and nothing is endless without an excuse. -/
def Stop.Reports (fault : Option Fault) (excuse : Prop) : Stop → Prop
  | .failed error =>
    ∃ reported, fault = some reported ∧ error.fault? = some reported
  | .cutsCharacter => False
  | .endless => excuse

/-- Where there is no fault there is none to report. -/
theorem Stop.Reports.of_none
    {excuse excuse' : Prop}
    {stop : Stop}
    (reports : stop.Reports none excuse)
    (fault : Option Fault)
    (weaker : excuse → excuse') :
    stop.Reports fault excuse' := by
  cases stop with
  | failed error =>
    rcases reports with ⟨reported, nothing, -⟩
    cases nothing
  | cutsCharacter => exact reports
  | endless => exact weaker reports

theorem Stop.Reports.mono
    {fault : Option Fault}
    {excuse excuse' : Prop}
    {stop : Stop}
    (reports : stop.Reports fault excuse)
    (weaker : excuse → excuse') :
    stop.Reports fault excuse' := by
  cases stop with
  | failed error => exact reports
  | cutsCharacter => exact reports
  | endless => exact weaker reports

/-- An indented sound partial has no fault, and its pairs are clean. -/
theorem SoundPartial.indent
    {source indentation : Text}
    (sound : SoundPartial source)
    (inline : ∀ character ∈ indentation, Text.isInlineBlank character = true) :
    (survey .standard [] (source.indent indentation)).2 = none ∧
    ∀ pair ∈ pairsIn .standard (source.indent indentation), pair.Clean := by
  have solid : ∀ pair ∈ pairsIn .standard source, pair.Solid :=
    fun pair member => (sound.clean pair member).1
  have noFault :
      ∀ fault ∈ (survey .standard [] source).2, fault.SwitchesInline := by
    rw [sound.sound]
    simp
  rcases survey_indent inline solid sound.inline noFault with ⟨surveyed, pairs⟩
  constructor
  · rw [surveyed, indentedSurvey, sound.sound]
    rfl
  · rw [pairs]
    exact sound.clean

/-! ## Partials that a template may include -/

/--
A template may include a partial that a tag of it names, or that a tag names in
a partial that it may include, with whatever indentation.
-/
inductive MayInclude
    (partials : Partials)
    (delimiters : Delimiters)
    (text : Text) : String → Prop where
  | tag
      {tag : Piece}
      (member : tag ∈ (survey delimiters [] text).1)
      (includes : tag.kind = .inclusion) :
      MayInclude partials delimiters text (String.ofList tag.name)
  | nested
      {name source : String}
      {indentation : Text}
      {tag : Piece}
      (through : MayInclude partials delimiters text name)
      (found : partials.get? name = some source)
      (inline : ∀ character ∈ indentation, Text.isInlineBlank character = true)
      (member :
        tag ∈ (survey .standard [] (Text.indent source.toList indentation)).1)
      (includes : tag.kind = .inclusion) :
      MayInclude partials delimiters text (String.ofList tag.name)

/--
The pairs of a template are clean, and the partials that it may include are
sound.
-/
structure SoundTemplate
    (partials : Partials)
    (delimiters : Delimiters)
    (text : Text) : Prop where
  clean : ∀ pair ∈ pairsIn delimiters text, pair.Clean
  includes : ∀ name source, MayInclude partials delimiters text name →
    partials.get? name = some source → SoundPartial source.toList

namespace MayInclude

variable
    {partials : Partials}
    {delimiters after : Delimiters}
    {text rest : Text}
    {name : String}

/-- What a template with some of the tags may include. -/
theorem of_subset
    (includes : MayInclude partials after rest name)
    (subset :
      ∀ tag ∈ (survey after [] rest).1, tag ∈ (survey delimiters [] text).1) :
    MayInclude partials delimiters text name := by
  induction includes with
  | tag member kind => exact .tag (subset _ member) kind
  | nested _ found inline member kind through =>
    exact .nested through found inline member kind

/-- What an included partial may include, once it is indented. -/
theorem of_partial
    {source : String}
    {indentation : Text}
    {included : String}
    (through : MayInclude partials delimiters text name)
    (found : partials.get? name = some source)
    (inline : ∀ character ∈ indentation, Text.isInlineBlank character = true)
    (includes :
      MayInclude partials .standard (Text.indent source.toList indentation)
        included) :
    MayInclude partials delimiters text included := by
  induction includes with
  | tag member kind => exact .nested through found inline member kind
  | nested _ foundHere inlineHere member kind through =>
    exact .nested through foundHere inlineHere member kind

end MayInclude

namespace SoundTemplate

variable
    {partials : Partials}
    {delimiters after : Delimiters}
    {text skipped rest left : Text}

/-- What is left behind a block is as sound. -/
theorem of_survey
    (sound : SoundTemplate partials delimiters text)
    {tags : List Piece}
    (onTheWay : after ∈ pairsOf delimiters tags)
    (surveyed :
      survey delimiters [] text =
        (tags ++ (survey after [] left).1, (survey after [] left).2)) :
    SoundTemplate partials after left where
  clean pair member :=
    sound.clean pair (pairsIn_of_surveyed onTheWay surveyed pair member)
  includes name source includes :=
    sound.includes name source (includes.of_subset (by
      intro tag member
      rw [surveyed]
      exact List.mem_append_right _ member))

/-- So is the body of a section, cut and guarded. -/
theorem body
    (sound : SoundTemplate partials delimiters text)
    {opener closer : Piece}
    {body inner : Text}
    (result :
      scanNode delimiters text =
        .found skipped (.paired opener body closer) after rest)
    (trimmed : body.TrimsTo inner)
    (startsLine : Bool) :
    SoundTemplate partials delimiters (guarded inner startsLine) where
  clean pair member :=
    sound.clean pair
      (pairsIn_guarded_subset sound.clean result trimmed startsLine pair member)
  includes name source includes := by
    rcases survey_guarded_of_paired sound.clean result trimmed startsLine with
      ⟨tags, surveyed, subset⟩
    exact sound.includes name source (includes.of_subset (by rwa [surveyed]))

/-- And so is a partial that is included, once it is indented. -/
theorem indent
    (sound : SoundTemplate partials delimiters text)
    {name source : String}
    {indentation : Text}
    (through : MayInclude partials delimiters text name)
    (found : partials.get? name = some source)
    (inline : ∀ character ∈ indentation, Text.isInlineBlank character = true) :
    SoundTemplate partials .standard
      (Text.indent source.toList indentation) where
  clean := ((sound.includes name source through found).indent inline).2
  includes other text includes :=
    sound.includes other text (.of_partial through found inline includes)

end SoundTemplate

namespace Draft

variable
    {store : Store}
    {known : Value → Prop}
    {world : World}
    {lambdas : Lambdas}
    {render : TemplateRenderer}
    {partials : Partials}
    {delimiters : Delimiters}
    {draft : Draft}

/-- What excuses a run that has no answer. -/
def Excused
    (store : Store)
    (known : Value → Prop)
    (fuel : Nat)
    (partials : Partials)
    (unread : Text) : Prop :=
  Unshowable store known ∨ fuel ≤ unread.length ∨ partials ≠ []

/-- A renderer reports the fault of every sound template, in known worlds. -/
def RendersFaults
    (store : Store)
    (known : Value → Prop)
    (fuel : Nat)
    (partials : Partials)
    (render : TemplateRenderer) : Prop :=
  ∀ world : World, world.Within store known → ∀ template delimiters,
    SoundTemplate partials delimiters template →
      Settles world (fun _ => (survey delimiters [] template).2 = none)
        (Stop.Reports (survey delimiters [] template).2
          (Excused store known fuel partials template))
        (render template partials delimiters)

/-- After a step the rest has the fault that there was, and is as sound. -/
def Continues
    (partials : Partials)
    (draft : Draft)
    (delimiters : Delimiters) : Text ⊕ Draft × Delimiters → Prop
  | .inl _ => (survey delimiters [] draft.unread).2 = none
  | .inr (draft', after) =>
    (survey after [] draft'.unread).2 = (survey delimiters [] draft.unread).2 ∧
      SoundTemplate partials after draft'.unread ∧
      draft'.unread.length < draft.unread.length

theorem settles_soundBlock
    (values : PlainValues store known)
    (within : world.Within store known)
    {fuel : Nat}
    (renders : RendersFaults store known fuel partials render)
    {unread skipped rest : Text}
    {after : Delimiters}
    {block : Block}
    (sound : SoundTemplate partials delimiters unread)
    (result : scanNode delimiters unread = .found skipped block after rest)
    (lambdas : Lambdas)
    (draft : Draft) :
    Settles world (block.Renders fun _ => True)
      (Stop.Reports (survey delimiters [] unread).2
        (Excused store known (fuel + 1) partials unread))
      (draft.blockText lambdas render partials delimiters block) := by
  apply settles_blockText values within .inl
  · rintro piece rfl kind source found indentation inline
    have isTag : piece.tags = [piece] :=
      if_neg (by rw [kind]; exact TokenKind.noConfusion)
    have member : piece ∈ (survey delimiters [] unread).1 := by
      simp [(survey_of_node_leaf result).2, isTag]
    have through :
        MayInclude partials delimiters unread (String.ofList piece.name) :=
      .tag member kind
    have some : partials ≠ [] := by
      rintro rfl
      cases found
    apply (renders world within _ _ (sound.indent through found inline)).mono
      (fun _ _ => True.intro)
    intro stop reports
    rw [((sound.includes _ source through found).indent inline).1] at reports
    exact reports.of_none _ fun _ => .inr (.inr some)
  · rintro opener body closer rfl inner trimmed startsLine world within
    have shorter := length_guarded_lt result trimmed startsLine
    rcases survey_guarded_of_paired sound.clean result trimmed startsLine with
      ⟨tags, surveyed, -⟩
    apply (renders world within _ _ (sound.body result trimmed startsLine)).mono
      (fun _ _ => True.intro)
    intro stop reports
    rw [surveyed] at reports
    apply reports.of_none
    rintro (unshowable | spent | some)
    · exact .inl unshowable
    · exact .inr (.inl (by omega))
    · exact .inr (.inr some)

theorem settles_step
    (values : PlainValues store known)
    (within : world.Within store known)
    {fuel : Nat}
    (renders : RendersFaults store known fuel partials render)
    (sound : SoundTemplate partials delimiters draft.unread) :
    Settles world (draft.Continues partials delimiters)
      (Stop.Reports (survey delimiters [] draft.unread).2
        (Excused store known (fuel + 1) partials draft.unread))
      ((cautious lambdas).step render partials (draft, delimiters)) := by
  have solid : ∀ pair ∈ pairsAtNext draft.unread delimiters, pair.Solid :=
    fun pair member =>
    (sound.clean pair
      (pairsAtNext_subset delimiters draft.unread pair member)).1
  apply settles_cautiousStep solid
  · intro finished
    show (survey delimiters [] draft.unread).2 = none
    rw [survey_of_node_finished finished]
  · intro before fault faulty line
    exact ⟨fault, survey_of_node_faulty faulty, fault.fault?_onLine _⟩
  · intro skipped block after rest found
    apply (settles_soundBlock values within renders sound found lambdas _).mono
      ?_ fun _ => id
    intro text _
    have solidAfter : after.Solid := solid after (by simp [pairsAtNext, found])
    rcases survey_of_trimAround found solidAfter with
      ⟨⟨tags, isAfter, surveyed⟩, shorter⟩
    exact ⟨(congrArg Prod.snd surveyed).symm, sound.of_survey isAfter surveyed,
      shorter⟩

/-- A run of a sound template reports the fault of the template. -/
theorem settles_soundRun
    (values : PlainValues store known)
    (lambdas : Lambdas)
    (fuel : Nat)
    (within : world.Within store known)
    (sound : SoundTemplate partials delimiters draft.unread) :
    Settles world (fun _ => (survey delimiters [] draft.unread).2 = none)
      (Stop.Reports (survey delimiters [] draft.unread).2
        (Excused store known fuel partials draft.unread))
      ((cautious lambdas).run fuel partials (draft, delimiters)) := by
  induction fuel generalizing world draft delimiters with
  | zero => exact .throw (.inr (.inl (Nat.zero_le _)))
  | succ fuel ih =>
    have renders :
        RendersFaults store known fuel partials
          ((cautious lambdas).render fuel) :=
      fun world within template delimiters sound => ih within sound
    rw [Machine.run_succ]
    apply (settles_step values within renders sound).bind
    rintro (text | ⟨draft', after⟩) continues
    · exact .pure continues
    · rcases continues with ⟨same, soundAfter, shorter⟩
      have later := ih within soundAfter
      rw [same] at later
      apply later.mono (fun _ noFault => noFault)
      intro stop reports
      apply reports.mono
      rintro (unshowable | spent | some)
      · exact .inl unshowable
      · exact .inr (.inl (by omega))
      · exact .inr (.inr some)

theorem settles_run
    (values : PlainValues store known)
    (sound :
      ∀ name source,
        partials.get? name = some source → SoundPartial source.toList)
    (lambdas : Lambdas)
    (fuel : Nat)
    (within : world.Within store known)
    (clean : ∀ pair ∈ pairsIn delimiters draft.unread, pair.Clean) :
    Settles world (fun _ => (survey delimiters [] draft.unread).2 = none)
      (Stop.Reports (survey delimiters [] draft.unread).2
        (Excused store known fuel partials draft.unread))
      ((cautious lambdas).run fuel partials (draft, delimiters)) :=
  settles_soundRun values lambdas fuel within
    ⟨clean, fun name source _ found => sound name source found⟩

end Draft

/--
Rendering in place reports the fault, too, since no pair with a blank is used.
-/
theorem settles_soundTemplate
    {store : Store}
    {known : Value → Prop}
    {world : World}
    {template : Text}
    {partials : Partials}
    {delimiters : Delimiters}
    (values : PlainValues store known)
    (lambdas : Lambdas)
    (fuel : Nat)
    (within : world.Within store known)
    (sound : SoundTemplate partials delimiters template) :
    Settles world (fun _ => (survey delimiters [] template).2 = none)
      (Stop.Reports (survey delimiters [] template).2
        (Draft.Excused store known fuel partials template))
      (interpretWithin lambdas fuel template partials delimiters) :=
  settles_of_cautious (Draft.settles_soundRun values lambdas fuel within sound)
    id

theorem settles_interpretWithin
    {store : Store}
    {known : Value → Prop}
    {world : World}
    {template : Text}
    {partials : Partials}
    {delimiters : Delimiters}
    (values : PlainValues store known)
    (sound :
      ∀ name source,
        partials.get? name = some source → SoundPartial source.toList)
    (lambdas : Lambdas)
    (fuel : Nat)
    (within : world.Within store known)
    (clean : ∀ pair ∈ pairsIn delimiters template, pair.Clean) :
    Settles world (fun _ => (survey delimiters [] template).2 = none)
      (Stop.Reports (survey delimiters [] template).2
        (Draft.Excused store known fuel partials template))
      (interpretWithin lambdas fuel template partials delimiters) :=
  settles_soundTemplate values lambdas fuel within
    ⟨clean, fun name source _ found => sound name source found⟩

end Mustache
