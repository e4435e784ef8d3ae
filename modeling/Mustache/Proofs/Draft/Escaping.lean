import Mustache.Proofs.Delimiters
import Mustache.Proofs.Draft.Blocks
import Mustache.Proofs.Scan.Guard
import Mustache.Proofs.Scan.Indent
import Mustache.Proofs.Text.Markup

/-!
# Templates that emit no markup

An interpolation escapes what it shows, unless its tag asks for the value as it
is.  A template without such tags, itself without markup, therefore emits none,
whatever the data hold (`interpretWithin_unmarked`).  The induction is on the
fuel.  What carries it is that nothing that was written or is still unread is
markup, and that no tag that is still unread shows a value as it is
(`Draft.settles_unmarkedRun`).

The tags are those that a survey of the template finds, and rendering has to
read the same.  It does not if a delimiter holds a blank: the line of a comment
that is alone on it can then reach into the next tag, and what is left of that
is another tag (`markup_of_blank_delimiters`).  An indentation that goes into a
set-delimiter tag of a partial may change its pair.
-/

namespace Mustache

open RenderM

/--
A template without markup whose tags, up to its first fault, show no value as it
is.
-/
structure EscapingTemplate (source : Text) : Prop where
  unmarked : source.Unmarked
  escaped : ∀ tag ∈ (survey .standard [] source).1, tag.kind ≠ .unescaped
  solid : ∀ pair ∈ pairsIn .standard source, pair.Solid

/-- A partial of this kind, with set-delimiter tags on one line. -/
structure EscapingPartial (source : Text) :
    Prop extends EscapingTemplate source where
  inline : ∀ tag ∈ (survey .standard [] source).1, tag.SwitchesInline
  inlineFault : ∀ fault ∈ (survey .standard [] source).2, fault.SwitchesInline

instance (source : Text) : Decidable (EscapingTemplate source) :=
  decidable_of_iff
    (source.Unmarked ∧
      (∀ tag ∈ (survey .standard [] source).1, tag.kind ≠ .unescaped) ∧
      ∀ pair ∈ pairsIn .standard source, pair.Solid)
    ⟨fun ⟨unmarked, escaped, solid⟩ => ⟨unmarked, escaped, solid⟩,
      fun ⟨unmarked, escaped, solid⟩ => ⟨unmarked, escaped, solid⟩⟩

instance (source : Text) : Decidable (EscapingPartial source) :=
  decidable_of_iff
    (EscapingTemplate source ∧
      (∀ tag ∈ (survey .standard [] source).1, tag.SwitchesInline) ∧
      ∀ fault ∈ (survey .standard [] source).2, fault.SwitchesInline)
    ⟨fun ⟨escaping, inline, inlineFault⟩ => ⟨escaping, inline, inlineFault⟩,
      fun ⟨escaping, inline, inlineFault⟩ => ⟨escaping, inline, inlineFault⟩⟩

/-- A text that escapes everything when it is rendered from a pair. -/
structure Escapes (delimiters : Delimiters) (template : Text) : Prop where
  unmarked : template.Unmarked
  escaped : ∀ tag ∈ (survey delimiters [] template).1, tag.kind ≠ .unescaped
  clean : ∀ pair ∈ pairsIn delimiters template, pair.Clean

/-- No tag installs a pair with an equals sign. -/
theorem EscapingTemplate.escapes
    {source : Text}
    (escaping : EscapingTemplate source) :
    Escapes .standard source where
  unmarked := escaping.unmarked
  escaped := escaping.escaped
  clean pair member := by
    rcases accepted_of_pairsIn Delimiters.accepted_standard source pair
        member with ⟨_, named⟩
    have signs := (Delimiters.parse?_eq_some_iff.1 named).noSign
    exact ⟨escaping.solid pair member, fun sign =>
      (List.mem_append.1 sign).elim signs.1 signs.2⟩

theorem EscapingPartial.indent
    {source indentation : Text}
    (escaping : EscapingPartial source)
    (inline : ∀ character ∈ indentation, Text.isInlineBlank character = true) :
    Escapes .standard (source.indent indentation) := by
  have escapes := escaping.escapes
  rcases survey_indent inline escaping.solid escaping.inline
      escaping.inlineFault with ⟨surveyed, pairs⟩
  refine ⟨?_, ?_, ?_⟩
  · rw [Text.indent_eq]
    exact escapes.unmarked.indentFrom (Text.blank_of_inlineBlank inline) true
  · intro tag member
    rw [surveyed] at member
    rcases List.mem_map.1 member with ⟨original, within, rfl⟩
    rw [kind_indented]
    exact escapes.escaped original within
  · rw [pairs]
    exact escapes.clean

variable
    {store : Store}
    {known : Value → Prop}
    {world : World}
    {lambdas : Lambdas}
    {render : TemplateRenderer}
    {partials : Partials}
    {delimiters after : Delimiters}
    {unread skipped rest text : Text}
    {block : Block}

/-- What is left after a block, as far as its tags go. -/
theorem Escapes.of_survey
    (escapes : Escapes delimiters unread)
    {tags : List Piece}
    (onTheWay : after ∈ pairsOf delimiters tags)
    (surveyed :
      survey delimiters [] unread =
        (tags ++ (survey after [] rest).1, (survey after [] rest).2))
    (unmarked : rest.Unmarked) :
    Escapes after rest := by
  refine ⟨unmarked, ?_, ?_⟩
  · intro tag member
    apply escapes.escaped tag
    rw [surveyed]
    exact List.mem_append_right _ member
  · intro pair member
    exact escapes.clean pair (pairsIn_of_surveyed onTheWay surveyed pair member)

/--
The body of a section, cut and guarded, has the tags that it has in the
template.
-/
theorem Escapes.body
    (escapes : Escapes delimiters unread)
    {opener closer : Piece}
    {body : Text}
    (result :
      scanNode delimiters unread =
        .found skipped (.paired opener body closer) after rest)
    {inner : Text}
    (trimmed : body.TrimsTo inner)
    (startsLine : Bool) :
    Escapes delimiters (guarded inner startsLine) := by
  rcases survey_guarded_of_paired escapes.clean result trimmed startsLine with
    ⟨tags, surveyed, subset⟩
  refine ⟨unmarked_guarded ?_ startsLine, ?_, ?_⟩
  · intro character member
    apply escapes.unmarked character
    rcases trimmed with ⟨line, indentation, rfl, -⟩
    rw [(scanNode_eq_found result).1, Block.source]
    simp [member]
  · rw [surveyed]
    exact fun tag member => escapes.escaped tag (subset tag member)
  · intro pair member
    exact escapes.clean pair
      (pairsIn_guarded_subset escapes.clean result trimmed startsLine pair
        member)

/--
What is written for a block is no markup, if nothing is that its nested texts
show.
-/
theorem Escapes.renders
    (escapes : Escapes delimiters unread)
    (result : scanNode delimiters unread = .found skipped block after rest)
    (renders : block.Renders Text.Unmarked text) : text.Unmarked := by
  cases block with
  | leaf piece =>
    have source : piece.source.Unmarked := by
      intro character member
      apply escapes.unmarked character
      rw [(scanNode_eq_found result).1, Block.source]
      simp [member]
    simp only [Block.Renders] at renders
    cases kind : piece.kind with
    | text | opener | invertedOpener | closer =>
      simp only [kind] at renders
      rwa [renders]
    | comment | setDelimiters =>
      simp only [kind] at renders
      rw [renders]
      exact Text.unmarked_nil
    | interpolation | implicit =>
      simp only [kind] at renders
      rcases renders with ⟨shown, rfl⟩
      exact shown.unmarked_escapeMarkup
    | inclusion =>
      simp only [kind] at renders
      rcases renders with rfl | unmarked
      · exact Text.unmarked_nil
      · exact unmarked
    | unescaped =>
      have isTag : piece.tags = [piece] :=
        if_neg (by rw [kind]; exact TokenKind.noConfusion)
      have found := (survey_of_node_leaf result).2
      exact absurd kind (escapes.escaped piece (by simp [found, isTag]))
  | paired opener body closer =>
    rcases renders with ⟨startsLine, texts, unmarked, rfl⟩
    apply Text.Unmarked.flatten
    intro inner member
    rcases List.mem_map.1 member with ⟨guardedText, within, rfl⟩
    exact unmarked_unguarded (unmarked guardedText within) startsLine

namespace Draft

variable {draft : Draft}

/--
A renderer shows no markup for templates that escape everything, in known
worlds.
-/
def RendersUnmarked
    (store : Store)
    (known : Value → Prop)
    (partials : Partials)
    (render : TemplateRenderer) : Prop :=
  ∀ world : World,
    world.Within store known →
    ∀ template delimiters,
      Escapes delimiters template →
      Settles world Text.Unmarked (· ≠ .cutsCharacter)
        (render template partials delimiters)

/--
Nothing that was written is markup, and what is unread escapes everything.
-/
def Unmarked (draft : Draft) (delimiters : Delimiters) : Prop :=
  draft.written.Unmarked ∧ Escapes delimiters draft.unread

/-- After a block that is no markup a draft is still without markup. -/
theorem Unmarked.after_block
    (unmarked : draft.Unmarked delimiters)
    (result :
      scanNode delimiters draft.unread = .found skipped block after rest)
    (solid : after.Solid)
    (written : text.Unmarked) :
    (((draft.pass skipped block.source rest).trimAround block).write
      text).Unmarked after := by
  rcases unmarked with ⟨before, escapes⟩
  have split := (scanNode_eq_found result).1
  rcases (draft.pass skipped block.source rest).cuts_trimAround block with
    ⟨_, line, cuts, -⟩
  have passed : (draft.written ++ skipped).Unmarked := by
    apply Text.unmarked_append.2 ⟨before, ?_⟩
    intro character member
    exact escapes.unmarked character (by rw [split]; simp [member])
  have kept : (draft.written ++ skipped) = _ := cuts.written_eq
  rw [kept, Text.unmarked_append] at passed
  rcases survey_of_trimAround result solid with ⟨⟨tags, onTheWay, surveyed⟩, -⟩
  refine ⟨Text.unmarked_append.2 ⟨passed.1, written⟩,
    escapes.of_survey onTheWay surveyed ?_⟩
  intro character member
  apply escapes.unmarked character
  have isRest : rest = _ := cuts.unread_eq
  rw [split, isRest]
  exact List.mem_append_right _
    (List.mem_append_right _ (List.mem_append_right _ member))

theorem settles_unmarkedStep
    (values : PlainValues store known)
    (within : world.Within store known)
    (escaping :
      ∀ name source,
        partials.get? name = some source → EscapingPartial source.toList)
    (renders : RendersUnmarked store known partials render)
    (unmarked : draft.Unmarked delimiters) :
    Settles world
      (fun next : Text ⊕ Draft × Delimiters => match next with
        | .inl text => text.Unmarked
        | .inr (draft', after) => draft'.Unmarked after)
      (· ≠ .cutsCharacter)
        ((cautious lambdas).step render partials (draft, delimiters)) := by
  have solid : ∀ pair ∈ pairsAtNext draft.unread delimiters, pair.Solid :=
    fun pair member =>
    (unmarked.2.clean pair
      (pairsAtNext_subset delimiters draft.unread pair member)).1
  apply settles_cautiousStep solid
  · intro _
    exact Text.unmarked_append.2 ⟨unmarked.1, unmarked.2.unmarked⟩
  · intro before fault _ line
    exact Stop.noConfusion
  · intro skipped block after rest result
    have bodies :
        ∀ opener body closer,
          block = .paired opener body closer →
          ∀ inner,
            body.TrimsTo inner →
            ∀ startsLine,
              ∀ world : World,
                world.Within store known →
                Settles world Text.Unmarked (· ≠ .cutsCharacter)
                  (render (guarded inner startsLine) partials delimiters) := by
      rintro opener body closer rfl inner trimmed startsLine world within
      exact renders world within _ _ (unmarked.2.body result trimmed startsLine)
    apply (settles_blockText values within (fun _ => Stop.noConfusion) lambdas
      (draft.pass skipped block.source rest) block
      (fun piece _ _ source found indentation inline =>
        renders world within _ _ ((escaping _ source found).indent inline))
      bodies).mono ?_ fun _ => id
    intro text isText
    exact unmarked.after_block result
      (solid after (by simp [pairsAtNext, result]))
      (unmarked.2.renders result isText)

theorem settles_unmarkedRun
    (values : PlainValues store known)
    (escaping :
      ∀ name source,
        partials.get? name = some source → EscapingPartial source.toList)
    (lambdas : Lambdas)
    (fuel : Nat)
    (within : world.Within store known)
    (unmarked : draft.Unmarked delimiters) :
    Settles world Text.Unmarked (· ≠ .cutsCharacter)
      ((cautious lambdas).run fuel partials (draft, delimiters)) := by
  induction fuel generalizing world draft delimiters with
  | zero => exact .throw Stop.noConfusion
  | succ fuel ih =>
    have renders :
        RendersUnmarked store known partials ((cautious lambdas).render fuel) :=
      fun world within template delimiters escapes =>
        ih within ⟨Text.unmarked_nil, escapes⟩
    rw [Machine.run_succ]
    apply (settles_unmarkedStep values within escaping renders unmarked).bind
    rintro (text | ⟨draft', after⟩) holds
    · exact .pure holds
    · exact ih within holds

end Draft

/--
With data without lambdas and primitive conversions, no markup is rendered from
a template and partials that hold none and have no tag that shows a value as it
is.  No delimiter may hold a blank, and no set-delimiter tag of a partial may
span several lines.
-/
theorem interpretWithin_unmarked
    {store : Store}
    {data : Value}
    {template : Text}
    {partials : Partials}
    (escaping : EscapingTemplate template)
    (escapingPartials :
      ∀ name source,
        partials.get? name = some source → EscapingPartial source.toList)
    (plain : PlainData store data)
    (lambdas : Lambdas)
    (fuel : Nat)
    {text : Text}
    (rendered :
      (interpretWithin lambdas fuel template partials .standard
          ⟨store, .ofRoot data⟩).1 =
        .ok text) : text.Unmarked := by
  have start : (Draft.ofText template).Unmarked .standard :=
    ⟨Text.unmarked_nil, escaping.escapes⟩
  have ends :=
    settles_of_cautious
      (Draft.settles_unmarkedRun plain.values escapingPartials lambdas fuel
        (World.within_ofRoot (.inr .data)) start)
      (fun never => never rfl) _ rfl
  generalize interpretWithin lambdas fuel template partials .standard
      ⟨store, .ofRoot data⟩ = outcome at ends rendered
  rcases outcome with ⟨_ | _, after⟩
  · cases rendered
  · cases rendered
    exact ends.1

/--
Printed keys and quotes, a tag that is none, a switch, and a partial with a
fault.
-/
theorem interpretWithin_unmarked_printed :
    let store : Store := ⟨#[[("s", .list [.string "<b>", .map ⟨⟨1⟩, none⟩]),
      ("x", .string "\"é'")], [("<k>", .list [.bool true, .string ">"])]]⟩
    let data : Value := .map ⟨⟨0⟩, none⟩
    let template : Text :=
      ("\x7b\x7b#s\x7d\x7d\n \x7b\x7b.\x7d\x7d \x7b\x7b.x\x7d\x7d\n\x7b\x7b/s\x7d\x7d\n" ++
        "  \x7b\x7b@p\x7d\x7d\n\x7b\x7b=| |=\x7d\x7d|s|\n").toList
    let partials : Partials :=
      [("p", "a\x7b\x7b!\n c \x7d\x7d\n\x7b\x7b=[ ]=\x7d\x7d\n[x][^y]&[/y]\n"),
        ("q", "\x7b\x7b=x=\x7d\x7d")]
    let text : Text :=
      (" &lt;b&gt; \x7b\x7b.x\x7d\x7d\n" ++
        " \x7b&quot;&lt;k&gt;&quot;:[true,&quot;&gt;&quot;]\x7d \x7b\x7b.x\x7d\x7d\n" ++
        "  a\n  &quot;é&apos;&\n" ++
        "[&quot;&lt;b&gt;&quot;,\x7b&quot;&lt;k&gt;&quot;:[true,&quot;&gt;&quot;]\x7d]\n").toList
    (interpretWithin .none 60 template partials .standard
        ⟨store, .ofRoot data⟩).1 =
      .ok text ∧
    text.Unmarked := by
  intro store data template partials text
  have rendered : (interpretWithin .none 60 template partials .standard
      ⟨store, .ofRoot data⟩).1 = .ok text := by
    decide +kernel
  have escapingPartials (name source : String)
      (found : partials.get? name = some source) :
      EscapingPartial source.toList := by
    rcases List.mem_cons.1 (Entries.mem_of_get? found) with isFirst | isSecond
    · cases isFirst
      decide +kernel
    · cases List.mem_singleton.1 isSecond
      decide +kernel
  exact ⟨rendered, interpretWithin_unmarked (by decide +kernel) escapingPartials
    (plainData_of_isPlain (by decide) (by decide)) .none 60 rendered⟩

/--
After the comment there is nothing but blanks on the line, since the delimiters
are control characters: the first one of the next tag is cut off together with
the line, and what is left of the tag shows the value as it is.
-/
theorem markup_of_blank_delimiters :
    let template : Text :=
      "\x7b\x7b=\x01 \x02=\x7d\x7d\n\x01!c\x02\x01\n \x01&x\x02".toList
    let store : Store := ⟨#[[("x", .string "<")]]⟩
    let data : Value := .map ⟨⟨0⟩, none⟩
    template.Unmarked ∧
      (∀ tag ∈ (survey .standard [] template).1, tag.kind ≠ .unescaped) ∧
      PlainData store data ∧
      (interpretWithin .none 20 template [] .standard ⟨store, .ofRoot data⟩).1 =
        .ok " <".toList ∧
      ¬Text.Unmarked " <".toList := by
  intro template store data
  refine ⟨by decide +kernel, by decide +kernel, ?_, by decide +kernel,
    by decide +kernel⟩
  exact plainData_of_isPlain (by decide) (by decide)

/--
The indentation of this partial is a control character from the data.  It
becomes a part of the closing delimiter, and another tag follows.
-/
example :
    let store : Store := ⟨#[[("a", .string "\x01"), ("x", .string "<")]]⟩
    let template : Text := "\x7b\x7ba\x7d\x7d\x7b\x7b@p\x7d\x7d\n".toList
    let source : String := "\x7b\x7b=|\n|=\x7d\x7d|a|b\n|c|&x\n|d|e|f\n|"
    (∀ tag ∈ (survey .standard [] template).1, tag.kind ≠ .unescaped) ∧
      (∀ tag ∈ (survey .standard [] source.toList).1, tag.kind ≠ .unescaped) ∧
      (interpretWithin .none 40 template [("p", source)] .standard
        ⟨store, .ofRoot (.map ⟨⟨0⟩, none⟩)⟩).1 = .ok "\x01c<d".toList := by
  decide +kernel

end Mustache
