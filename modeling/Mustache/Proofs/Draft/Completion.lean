import Mustache.Proofs.Draft.Blocks
import Mustache.Proofs.Draft.Extension
import Mustache.Proofs.Render.Across
import Mustache.Proofs.Scan.Extension

/-!
# Renderings that succeed

Rendering runs on fuel, and a text that it gives with some fuel it gives with
any more (`interpretWithin_agree`).  So what counts is that there is enough of
it.

A draft completes to a text when each of its blocks, one after the other, is
replaced by what stands for it (`Draft.Completes`).  Nested templates are
rendered in place, with enough fuel each.  With solid pairs that is what
rendering a template in place comes to (`completes_of_interpretWithin`,
`interpretWithin_of_completes`).  A stretch of text can be written at once or
character by character (`Draft.completes_cons_iff`).
-/

namespace Mustache

open RenderM

/-! ## Fuel -/

theorem bufferMachine_heeds (lambdas : Lambdas) :
    Machine.Simulates (· = .endless) Eq (bufferMachine lambdas)
      (bufferMachine lambdas) where
  start _ _ := rfl
  step := by
    rintro nested nested' renderers partials state _ rfl
    apply (agree_expandNext renderers lambdas partials state).mono
    rintro (text | next) _ rfl
    · exact .inl rfl
    · exact .inr rfl

/-- Rendering does with more fuel what it does, unless it ran out of it. -/
theorem interpretWithin_agree
    (lambdas : Lambdas)
    {fuel more : Nat}
    (le : fuel ≤ more) :
    RenderersAgree (· = .endless) (interpretWithin lambdas fuel)
      (interpretWithin lambdas more) := by
  intro template partials delimiters world
  rw [interpretWithin_eq_render, interpretWithin_eq_render]
  by_cases ends :
    ((bufferMachine lambdas).render fuel template partials delimiters world).1 =
      .error .endless
  · exact .inl ⟨.endless, ends, rfl⟩
  · have same :
        (bufferMachine lambdas).render more template partials delimiters world =
          (bufferMachine lambdas).render fuel template partials delimiters
            world := by
      apply Machine.run_of_le (bufferMachine_heeds lambdas) rfl le
      rintro stop stopped rfl
      exact ends stopped
    rw [same]
    exact Agree.refl _ world

namespace Draft

variable
    {lambdas : Lambdas}
    {partials : Partials}
    {delimiters : Delimiters}
    {draft : Draft}
    {reader : Reader}
    {world final : World}
    {text : Text}

/-! ## Completing a draft -/

/--
The rest of a draft is rendered to a text, from one world to another, and no
pair with a blank comes into effect.  Nested templates are rendered in place,
each with enough fuel.
-/
inductive Completes
    (lambdas : Lambdas)
    (partials : Partials) :
    Draft → Delimiters → World → Text → World → Prop where
  /-- There is no block left. -/
  | finished
      {draft : Draft}
      {delimiters : Delimiters}
      {world : World}
      (solid : delimiters.Solid)
      (result : scanNode delimiters draft.unread = .finished) :
      Completes lambdas partials draft delimiters world
        (draft.written ++ draft.unread) world
  /-- There is a block, and rendering goes on behind it. -/
  | block
      {draft : Draft}
      {delimiters after : Delimiters}
      {world between final : World}
      {skipped rest made text : Text}
      {block : Block}
      {fuel : Nat}
      (solid : delimiters.Solid)
      (result :
        scanNode delimiters draft.unread = .found skipped block after rest)
      (stands :
        (draft.pass skipped block.source rest).blockText lambdas
            (interpretWithin lambdas fuel) partials delimiters block world =
          (.ok made, between))
      (further :
        Completes lambdas partials
          (((draft.pass skipped block.source rest).trimAround block).write made)
          after between text final) :
      Completes lambdas partials draft delimiters world text final

theorem Completes.solid
    (completes : Completes lambdas partials draft delimiters world text final) :
    delimiters.Solid := by
  cases completes <;> assumption

theorem completes_of_run
    {fuel : Nat}
    (holds : reader.Holds draft)
    (solid : ∀ pair ∈ pairsIn delimiters draft.unread, pair.Solid)
    (ends :
      (bufferMachine lambdas).run fuel partials (reader, delimiters) world =
        (.ok text, final)) :
    Completes lambdas partials draft delimiters world text final := by
  induction fuel generalizing reader draft delimiters world with
  | zero => cases ends
  | succ fuel ih =>
    have solidHere : delimiters.Solid := solid delimiters List.mem_cons_self
    have atNext : ∀ pair ∈ pairsAtNext draft.unread delimiters, pair.Solid :=
      fun pair member =>
        solid pair (pairsAtNext_subset delimiters draft.unread pair member)
    have steps :=
      stepsInPlace holds atNext lambdas (interpretWithin lambdas fuel) partials
        world
    rw [Machine.run_apply, bufferMachine_step] at ends
    cases result : scanNode delimiters draft.unread with
    | finished =>
      simp only [step, result] at steps
      have stepped :
          expandNext lambdas (interpretWithin lambdas fuel) partials
              (reader, delimiters) world =
            (.ok (.inl (draft.written ++ draft.unread)), world) :=
        steps
      rw [stepped] at ends
      cases ends
      exact .finished solidHere result
    | faulty before fault =>
      simp only [step, result] at steps
      have stepped : expandNext lambdas (interpretWithin lambdas fuel) partials
          (reader, delimiters) world = (.error _, world) := steps
      rw [stepped] at ends
      cases ends
    | found skipped block after rest =>
      rw [step_of_found result] at steps
      generalize stands :
        (draft.pass skipped block.source rest).blockText lambdas
            (interpretWithin lambdas fuel) partials delimiters block
            world = outcome at steps
      rcases outcome with ⟨stop | made, between⟩
      · have stepped :
            expandNext lambdas (interpretWithin lambdas fuel) partials
                (reader, delimiters) world =
              (.error stop, between) :=
          steps
        rw [stepped] at ends
        cases ends
      · rcases steps with ⟨reader', stepped, held⟩
        rw [stepped] at ends
        have solidAfter : after.Solid :=
          atNext after (by simp [pairsAtNext, result])
        rcases survey_of_trimAround result solidAfter with
          ⟨⟨tags, onTheWay, surveyed⟩, -⟩
        have later :=
          ih held
            (fun pair member =>
              solid pair (pairsIn_of_surveyed onTheWay surveyed pair member))
            ends
        exact .block solidHere result stands later

/-- With solid pairs, a template that is rendered to a text completes to it. -/
theorem completes_of_interpretWithin
    {fuel : Nat}
    {template : Text}
    (solid : ∀ pair ∈ pairsIn delimiters template, pair.Solid)
    (renders :
      interpretWithin lambdas fuel template partials delimiters world =
        (.ok text, final)) :
    Completes lambdas partials (ofText template) delimiters world text
      final := by
  rw [interpretWithin_eq_render] at renders
  exact completes_of_run (Reader.holds_ofText template) solid renders

theorem run_of_completes
    (completes : Completes lambdas partials draft delimiters world text final) :
    ∃ enough,
      ∀ fuel,
        enough ≤ fuel →
        ∀ reader : Reader,
          reader.Holds draft →
          (bufferMachine lambdas).run fuel partials (reader, delimiters) world =
            (.ok text, final) := by
  induction completes with
  | @finished draft delimiters world solid result =>
    refine ⟨1, ?_⟩
    intro fuel le reader holds
    rcases fuel with _ | fuel
    · cases le
    have atNext : ∀ pair ∈ pairsAtNext draft.unread delimiters, pair.Solid := by
      simpa [pairsAtNext, result] using solid
    have steps :=
      stepsInPlace holds atNext lambdas (interpretWithin lambdas fuel) partials
        world
    simp only [step, result] at steps
    have stepped :
        expandNext lambdas (interpretWithin lambdas fuel) partials
            (reader, delimiters) world =
          (.ok (.inl (draft.written ++ draft.unread)), world) :=
      steps
    rw [Machine.run_apply, bufferMachine_step, stepped]
  | @block draft delimiters after world between final skipped rest made text
      block needed solid result stands further ih =>
    rcases ih with ⟨enough, renders⟩
    refine ⟨max enough needed + 1, ?_⟩
    intro fuel le reader holds
    rcases fuel with _ | fuel
    · cases le
    have enoughLeft : max enough needed ≤ fuel := Nat.le_of_succ_le_succ le
    have stepped :
        step lambdas (interpretWithin lambdas needed) partials
            (draft, delimiters) world =
          (.ok
              (.inr
                (((draft.pass skipped block.source rest).trimAround block).write
                    made, after)), between) := by
      rw [step_of_found result, stands]
    have same :
        step lambdas (interpretWithin lambdas needed) partials
            (draft, delimiters) world =
          step lambdas (interpretWithin lambdas fuel) partials
            (draft, delimiters) world := by
      have renderers :=
        interpretWithin_agree lambdas
          (Nat.le_trans (Nat.le_max_right _ _) enoughLeft)
      apply (agree_step renderers lambdas partials (draft, delimiters)).run_eq
      intro stop stopped
      rw [stepped] at stopped
      cases stopped
    have atNext : ∀ pair ∈ pairsAtNext draft.unread delimiters, pair.Solid := by
      simpa [pairsAtNext, result] using ⟨solid, further.solid⟩
    have steps :=
      stepsInPlace holds atNext lambdas (interpretWithin lambdas fuel) partials
        world
    rw [← same, stepped] at steps
    rcases steps with ⟨reader', inPlace, held⟩
    rw [Machine.run_apply, bufferMachine_step, inPlace]
    exact renders fuel (Nat.le_trans (Nat.le_max_left _ _) enoughLeft) reader'
      held

/--
And a template that completes to a text is rendered to it, given enough fuel.
-/
theorem interpretWithin_of_completes
    {template : Text}
    (completes :
      Completes lambdas partials (ofText template) delimiters world text
        final) :
    ∃ enough,
      ∀ fuel,
        enough ≤ fuel →
        interpretWithin lambdas fuel template partials delimiters world =
          (.ok text, final) := by
  rcases run_of_completes completes with ⟨enough, renders⟩
  refine ⟨enough, ?_⟩
  intro fuel le
  rw [interpretWithin_eq_render]
  exact renders fuel le (Reader.ofText template) (Reader.holds_ofText template)

/-! ## More text before a draft -/

/--
Text before a draft stays there, if the draft starts with no blank or nothing
was added.
-/
theorem Completes.extend
    {whole : Draft}
    {before : Text}
    (completes : Completes lambdas partials draft delimiters world text final)
    (ext : Extends before [] draft whole)
    (inked :
      before = [] ∨
      ∃ first, draft.written.head? = some first ∧ Text.isBlank first = false) :
    Completes lambdas partials whole delimiters world (before ++ text)
      final := by
  induction completes generalizing whole with
  | @finished draft delimiters world solid result =>
    have unread : whole.unread = draft.unread := by
      rw [ext.unread_eq, List.append_nil]
    rw [← List.append_assoc, ← ext.written_eq, ← unread]
    exact .finished solid (by rw [unread]; exact result)
  | @block draft delimiters after world between final skipped rest made text
      block needed solid result stands further ih =>
    have passed := ext.pass skipped block.source rest
    rw [List.append_nil] at passed
    have same : SameLine (draft.pass skipped block.source rest)
        (whole.pass skipped block.source rest) := by
      refine ⟨?_, rfl⟩
      rw [passed.written_eq]
      rcases inked with rfl | ⟨first, isFirst, notBlank⟩
      · rfl
      · apply Text.indentationAtEnd?_append_of_head _ notBlank
        simp [Draft.pass, List.head?_append, isFirst]
    have isBlock :
        scanNode delimiters whole.unread = .found skipped block after rest := by
      rw [ext.unread_eq, List.append_nil]
      exact result
    rw [← same.blockText_eq] at stands
    refine .block solid isBlock stands
      (ih ((passed.trimAround same block).write made) ?_)
    apply inked.imp_right
    rintro ⟨first, isFirst, notBlank⟩
    have isPassed :
        (draft.pass skipped block.source rest).written.head? = some first := by
      simp [Draft.pass, List.head?_append, isFirst]
    refine ⟨first, ?_, notBlank⟩
    simp [Draft.write, List.head?_append,
      head?_trimAround isPassed notBlank block]

/-- The line that a draft is on plays no part. -/
theorem Completes.congr
    {draft' : Draft}
    (completes : Completes lambdas partials draft delimiters world text final)
    (written : draft'.written = draft.written)
    (unread : draft'.unread = draft.unread) :
    Completes lambdas partials draft' delimiters world text final :=
  completes.extend ⟨written, by rw [unread, List.append_nil]⟩ (.inl rfl)

/-! ## Text at the start of a draft -/

theorem scanNode_of_text
    {unread skipped rest : Text}
    {piece : Piece}
    (result : scan delimiters unread = .found skipped piece rest)
    (isText : piece.kind = .text) :
    scanNode delimiters unread =
      .found skipped (.leaf piece) delimiters rest := by
  have other : piece.kind ≠ .setDelimiters :=
    ne_of_eq_of_ne isText TokenKind.noConfusion
  have same := delimitersAfter_of_scan result other
  simp only [scanNode, result, isText, same]
  rfl

/-- Text is written as it is. -/
theorem completes_text_iff
    {unread skipped rest : Text}
    {piece : Piece}
    (result : scan delimiters unread = .found skipped piece rest)
    (isText : piece.kind = .text)
    (written : Text)
    (line line' : Nat) :
    Completes lambdas partials ⟨written, unread, line⟩ delimiters world text
      final ↔
      Completes lambdas partials
        ⟨written ++ (skipped ++ piece.source), rest, line'⟩ delimiters world
        text final := by
  have isBlock := scanNode_of_text result isText
  have stays (draft : Draft) : draft.trimAround (.leaf piece) = draft :=
    trimAround_of_not_takesLine (by rw [isText]; rfl)
  have stands (draft : Draft) (render : TemplateRenderer) :
      draft.blockText lambdas render partials delimiters (.leaf piece) =
        pure piece.source := by
    simp only [blockText, leafText, isText]
  constructor
  · intro completes
    cases completes with
    | finished _ result' =>
      rw [isBlock] at result'
      cases result'
    | block _ result' made further =>
      rw [isBlock] at result'
      cases result'
      rw [stands] at made
      cases made
      rw [stays] at further
      exact further.congr (by simp [write, pass]) rfl
  · intro completes
    have made :=
      congrFun
        (stands ((Draft.mk written unread line).pass skipped piece.source rest)
          (interpretWithin lambdas 0))
        world
    refine .block completes.solid isBlock made ?_
    rw [stays]
    exact completes.congr (by simp [write, pass]) rfl

/-- Text may be written character by character. -/
theorem completes_cons_iff
    {character : Char}
    {rest : Text}
    (closed : delimiters.opensAt (character :: rest) = false)
    (written : Text)
    (line line' : Nat) :
    Completes lambdas partials ⟨written, character :: rest, line⟩ delimiters
      world text final ↔
      Completes lambdas partials ⟨written ++ [character], rest, line'⟩
        delimiters world text final := by
  rw [completes_text_iff (scan_of_not_opensAt closed) rfl written line line']
  rcases Lexeme.readPlain_cons_eq delimiters character rest with
    isSource | ⟨next, more, rfl, closedAfter, isSource⟩
  · simp [isSource]
  · rw [completes_text_iff (scan_of_not_opensAt closedAfter) rfl
        (written ++ [character]) line' line']
    simp [isSource]

/-- Malformed tags before some text are written as they are, too. -/
theorem completes_behind_iff
    {passed unread : Text}
    (nonempty : unread ≠ [])
    (closed : delimiters.opensAt unread = false)
    (isBehind :
      scan delimiters (passed ++ unread) =
        (scan delimiters unread).behind passed)
    (written : Text)
    (line : Nat) :
    Completes lambdas partials ⟨written, passed ++ unread, line⟩ delimiters
      world text final ↔
      Completes lambdas partials ⟨written ++ passed, unread, line⟩ delimiters
        world text final := by
  rcases List.exists_cons_of_ne_nil nonempty with ⟨character, rest, rfl⟩
  have isScan := scan_of_not_opensAt closed
  rw [isScan, Scan.behind, List.append_nil] at isBehind
  rw [completes_text_iff isBehind rfl written line line,
    completes_text_iff isScan rfl (written ++ passed) line line,
    List.nil_append, List.append_assoc]

/--
A text in which no tag opens is written as it is, whatever the stretches are it
is read in.
-/
theorem completes_append_iff
    {within behind : Text}
    (closed :
      ∀ later,
        later <:+ within → later ≠ [] →
        delimiters.opensAt (later ++ behind) = false)
    (written : Text)
    (line : Nat) :
    Completes lambdas partials ⟨written, within ++ behind, line⟩ delimiters
      world text final ↔
      Completes lambdas partials ⟨written ++ within, behind, line⟩ delimiters
        world text final := by
  induction within generalizing written with
  | nil => rw [List.append_nil, List.nil_append]
  | cons character within ih =>
    have here :=
      closed (character :: within) List.suffix_rfl (List.cons_ne_nil _ _)
    have further :
        ∀ later,
          later <:+ within → later ≠ [] →
          delimiters.opensAt (later ++ behind) = false :=
      fun later ends =>
        closed later (ends.trans (List.suffix_cons character within))
    rw [List.cons_append] at here ⊢
    rw [completes_cons_iff here written line line,
      ih further (written ++ [character]), List.append_assoc]
    rfl

/-- Where nothing is left, the text is what was written. -/
theorem Completes.of_nil
    {written : Text}
    {line : Nat}
    (completes :
      Completes lambdas partials ⟨written, [], line⟩ delimiters world text
        final) :
    text = written ∧ final = world := by
  cases completes with
  | finished => exact ⟨List.append_nil written, rfl⟩
  | block _ result =>
    simp only [scanNode, scan_nil] at result
    cases result

end Draft

end Mustache
