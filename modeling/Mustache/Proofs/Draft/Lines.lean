import Mustache.Proofs.Draft.Faults
import Mustache.Proofs.Reader.Faults
import Mustache.Proofs.Token.Shape

/-!
# The line of a fault

Checking a template and rendering it both report the line that a fault is on.
The check counts the line breaks of the template up to the faulty tag
(`validate_eq_faultIn`).  Rendering counts what it reads, but looks at the end
of what it wrote to tell whether a line feed completes a break.  A line feed of
the template that comes right behind a carriage return that was written is
therefore not counted.  That is all that can go wrong: rendering reports the
line of the check, less one for each time it read on from such a place
(`interpretWithin_line`).

What was read of the template, tags and cut lines included, never ends in the
middle of a break (`not_splitsBreak_of_found`, `Draft.Passes`), so that the
breaks of its parts add up.
-/

namespace Mustache

open RenderM

/-! ## Where a draft is cut -/

section Edges

variable
    {delimiters after : Delimiters}
    {unread skipped before rest : Text}
    {block : Block}
    {fault : Fault}

/-- A block of solid pairs does not end in the middle of a line break. -/
theorem not_splitsBreak_of_found
    (result : scanNode delimiters unread = .found skipped block after rest)
    (solid : delimiters.Solid)
    (solidAfter : after.Solid) :
    ¬Text.SplitsBreak (skipped ++ block.source) rest := by
  cases block with
  | leaf piece =>
    rcases scanNode_eq_leaf result with ⟨isScan, -⟩
    by_cases isText : piece.kind = .text
    · rcases read_of_scan isScan with ⟨-, -, made⟩
      rcases Lexeme.piece_eq_ok made with ⟨isPlain, -⟩ | ⟨body, isTag⟩
      · have stretch := (Lexeme.read_eq_plain isPlain).2
        rcases Lexeme.readPlain_ends delimiters.opening
            (piece.source ++ rest) with ⟨left, split, ends, -⟩
        rw [← stretch] at split
        cases List.append_cancel_left split
        rintro ⟨-, isFeed⟩
        rcases ends with rfl | ⟨nonempty, more, rfl⟩
        · cases isFeed
        · rcases List.exists_cons_of_ne_nil nonempty with
            ⟨first, others, isOpening⟩
          rw [isOpening] at isFeed
          cases isFeed
          have inked := solid.opening '\n' (by simp [isOpening])
          cases inked
      · exact absurd isText (Lexeme.kind_of_read isTag)
    · rcases (enclose_of_scan isScan isText).last_solid solid with
        ⟨last, isLast, inked⟩
      exact Text.not_splitsBreak_of_last isLast inked skipped rest
  | paired opener body closer =>
    rcases (scanNode_eq_paired result).2.2.2.last_solid solidAfter with
      ⟨last, isLast, inked⟩
    rw [Block.source, ← List.append_assoc, ← List.append_assoc]
    exact Text.not_splitsBreak_of_last isLast inked _ rest

/-- No fault is found at a line feed: where no tag opens there is text. -/
theorem not_splitsBreak_of_faulty
    (result : scanNode delimiters unread = .faulty before fault)
    (solid : delimiters.Solid)
    (written : Text) :
    ¬Text.SplitsBreak written unread := by
  rintro ⟨-, isFeed⟩
  rcases List.head?_eq_some_iff.1 isFeed with ⟨rest, rfl⟩
  rw [scanNode_of_not_opensAt (not_opensAt_of_isBlank solid (by decide) rest)]
    at result
  cases result

end Edges

namespace Draft

/--
A blank line is passed, with its line break as a whole, or nothing at all.
-/
structure Passes (draft draft' : Draft) (line : Text) : Prop where
  unread_eq : draft.unread = line ++ draft'.unread
  line_eq : draft'.line = draft.line + line.countLineBreaks
  blank : ∀ character ∈ line, Text.isBlank character = true
  whole : ¬Text.SplitsBreak line draft'.unread

variable {draft draft' : Draft} {line : Text}

theorem passes_nothing
    (unread : draft'.unread = draft.unread)
    (same : draft'.line = draft.line) :
    draft.Passes draft' [] where
  unread_eq := unread.symm
  line_eq := same
  blank := by simp
  whole := by simp [Text.SplitsBreak]

theorem passes_dropLine (isLine : draft.unread.lineAtStart? = some line) :
    draft.Passes (draft.dropLine line) line := by
  rcases Text.lineAtStart?_eq_some isLine with ⟨rest, unread, blank⟩
  rw [dropLine_eq unread]
  rw [unread] at isLine
  exact ⟨unread, rfl, blank, Text.not_splitsBreak_of_line isLine⟩

theorem passes_trimLine (draft : Draft) :
    ∃ line, draft.Passes draft.trimLine.2 line := by
  unfold trimLine
  split
  · rename_i indentation line alone
    have isLine :
        (draft.dropIndentation indentation).unread.lineAtStart? = some line :=
      (Text.lineBetween?_eq_some alone).2
    have passes := passes_dropLine isLine
    exact ⟨line, passes.unread_eq, passes.line_eq, passes.blank, passes.whole⟩
  · exact ⟨[], passes_nothing rfl rfl⟩

theorem passes_trimTags
    (draft : Draft)
    (body : Text) :
    ∃ line, draft.Passes (draft.trimTags body).2.2 line := by
  have opener (inner : Text) (closed : Draft) :
      (closed.trimOpener inner).2.2.unread = closed.unread ∧
        (closed.trimOpener inner).2.2.line = closed.line := by
    unfold trimOpener
    split <;> exact ⟨rfl, rfl⟩
  have closer : ∃ line, draft.Passes (draft.trimCloser body).2 line := by
    unfold trimCloser
    split
    · rename_i isLine
      exact ⟨_, passes_dropLine isLine⟩
    · exact ⟨[], passes_nothing rfl rfl⟩
  rcases closer with ⟨line, passes⟩
  rcases opener (draft.trimCloser body).1 (draft.trimCloser body).2 with
    ⟨sameUnread, sameLine⟩
  refine ⟨line, ?_, ?_, passes.blank, ?_⟩
  · rw [passes.unread_eq]
    exact congrArg _ sameUnread.symm
  · exact sameLine.trans passes.line_eq
  · have whole := passes.whole
    rw [← sameUnread] at whole
    exact whole

/-- Cutting the lines of a block's tags passes a blank line at most. -/
theorem passes_trimAround
    (draft : Draft)
    (block : Block) :
    ∃ line, draft.Passes (draft.trimAround block) line := by
  cases block with
  | leaf piece =>
    cases takes : piece.kind.takesLine with
    | true =>
      rw [trimAround_of_takesLine takes]
      exact draft.passes_trimLine
    | false =>
      rw [trimAround_of_not_takesLine takes]
      exact ⟨[], passes_nothing rfl rfl⟩
  | paired opener body closer => exact draft.passes_trimTags body

/-! ## The line that rendering reports -/

variable
    {store : Store}
    {known : Value → Prop}
    {world : World}
    {lambdas : Lambdas}
    {delimiters after : Delimiters}
    {unread skipped rest : Text}
    {block : Block}

/-- No partial at all is no faulty partial. -/
theorem soundPartial_of_none
    (name source : String)
    (found : Entries.get? ([] : Partials) name = some source) :
    SoundPartial source.toList := by
  cases found

/-- Without partials a block whose pairs are clean has no fault of its own. -/
theorem settles_faultlessBlock
    (values : PlainValues store known)
    (within : world.Within store known)
    (lambdas : Lambdas)
    (fuel : Nat)
    (clean : ∀ pair ∈ pairsIn delimiters unread, pair.Clean)
    (result : scanNode delimiters unread = .found skipped block after rest)
    (draft : Draft) :
    Settles world (fun _ => True) (fun stop => ∀ error, stop ≠ .failed error)
      (draft.blockText lambdas ((cautious lambdas).render fuel) [] delimiters
        block) := by
  have settled :
      Settles world (block.Renders fun _ => True)
        (fun stop => ∀ error, stop ≠ .failed error)
        (draft.blockText lambdas ((cautious lambdas).render fuel) [] delimiters
          block) := by
    apply settles_blockText values within (by simp)
    · rintro piece - - source ⟨⟩
    · rintro opener body closer rfl inner trimmed startsLine world within
      rcases survey_guarded_of_paired clean result trimmed startsLine with
        ⟨tags, surveyed, -⟩
      have cleanBody :
          ∀ pair ∈ pairsIn delimiters (guarded inner startsLine), pair.Clean :=
        fun pair member =>
          clean pair
            (pairsIn_guarded_subset clean result trimmed startsLine pair member)
      have body : Settles world _ _ ((cautious lambdas).run fuel []
          (ofText (guarded inner startsLine), delimiters)) :=
        settles_run values soundPartial_of_none lambdas fuel within cleanBody
      apply body.mono (fun _ _ => True.intro)
      rintro stop reports error rfl
      rcases reports with ⟨fault, isFault, -⟩
      have noFault :
          (survey delimiters [] (guarded inner startsLine)).2 = none := by
        rw [surveyed]
      cases noFault.symm.trans isFault
  exact settled.mono (fun _ _ => True.intro) fun _ => id

/-- A place where reading goes on in the middle of a line break. -/
def splitsBreak (draft : Draft) : Bool :=
  decide (Text.SplitsBreak draft.written draft.unread)

/-- How many breaks are not counted in the rest of a run. -/
def missedBreaks
    (lambdas : Lambdas)
    (fuel : Nat)
    (state : Draft × Delimiters)
    (world : World) : Nat :=
  ((cautious lambdas).heads fuel [] state world).countP fun head =>
    head.1.1.splitsBreak

theorem missedBreaks_succ
    (lambdas : Lambdas)
    (fuel : Nat)
    (draft : Draft)
    (delimiters : Delimiters)
    (world : World) :
    missedBreaks lambdas (fuel + 1) (draft, delimiters) world =
      (match (cautious lambdas).step ((cautious lambdas).render fuel) []
          (draft, delimiters) world with
        | (.ok (.inr next), after) => missedBreaks lambdas fuel next after
        | _ => 0) +
        if Text.SplitsBreak draft.written draft.unread then 1 else 0 := by
  unfold missedBreaks
  rw [Machine.heads, List.countP_cons]
  congr 1
  · rcases (cautious lambdas).step ((cautious lambdas).render fuel) []
        (draft, delimiters) world with ⟨_ | _ | _, _⟩ <;> rfl
  · simp [splitsBreak]

/--
Breaks are counted from one head of the loop to the next, but for one that is
split there.
-/
theorem line_trimAround
    {line : Text}
    (draft : Draft)
    (result :
      scanNode delimiters draft.unread = .found skipped block after rest)
    (solid : delimiters.Solid)
    (solidAfter : after.Solid)
    (passes :
      (draft.pass skipped block.source rest).Passes
        ((draft.pass skipped block.source rest).trimAround block) line)
    {before tag more : Text}
    (tail :
      ((draft.pass skipped block.source rest).trimAround block).unread =
        before ++ (tag ++ more)) :
    ((draft.pass skipped block.source rest).trimAround block).line +
        before.countLineBreaks +
        (if Text.SplitsBreak draft.written draft.unread then 1 else 0) =
      draft.line +
        (skipped ++ (block.source ++ (line ++ before))).countLineBreaks := by
  rcases scanNode_eq_found result with ⟨unread, nonempty⟩
  have isRest : rest = line ++ before ++ (tag ++ more) := by
    have split : rest = line ++ _ := passes.unread_eq
    rw [split, tail, List.append_assoc]
  have firstWhole :
      ¬Text.SplitsBreak (skipped ++ block.source) (line ++ before) := by
    intro splits
    apply not_splitsBreak_of_found result solid solidAfter
    rw [isRest]
    exact splits.of_prefix _
  have lineWhole : ¬Text.SplitsBreak line before := by
    intro splits
    apply passes.whole
    rw [tail]
    exact splits.of_prefix _
  have counted :=
    Text.lineBreaksAfter_add_split draft.written (skipped ++ block.source)
  have same : Text.SplitsBreak draft.written draft.unread ↔
      Text.SplitsBreak draft.written (skipped ++ block.source) := by
    rw [unread, ← List.append_assoc]
    exact Text.splitsBreak_append (by simp [nonempty]) _ _
  have passed :
      (draft.pass skipped block.source rest).line =
        draft.line +
          (skipped ++ block.source).lineBreaksAfter draft.written.getLast? :=
    rfl
  rw [passes.line_eq, passed, ← List.append_assoc skipped,
    Text.countLineBreaks_append firstWhole,
    Text.countLineBreaks_append lineWhole, ← counted]
  simp only [same]
  omega

/-- At a fault no break is split, and all breaks in front of it are counted. -/
theorem line_of_faulty
    {before : Text}
    {fault : Fault}
    (draft : Draft)
    (result : scanNode delimiters draft.unread = .faulty before fault)
    (solid : delimiters.Solid) :
    draft.line + before.lineBreaksAfter draft.written.getLast? +
        (if Text.SplitsBreak draft.written draft.unread then 1 else 0) =
      draft.line + before.countLineBreaks := by
  have noSplit := not_splitsBreak_of_faulty result solid draft.written
  have noSplitBefore : ¬Text.SplitsBreak draft.written before := by
    rcases scanNode_eq_faulty result with ⟨rest, unread⟩
    rw [unread] at noSplit
    exact fun splits => noSplit (splits.of_prefix _)
  have counted := Text.lineBreaksAfter_add_split draft.written before
  rw [if_neg noSplitBefore, Nat.add_zero] at counted
  rw [if_neg noSplit, counted]
  rfl

/--
The fault behind a block and the line cut after it is the fault of the whole.
-/
theorem faultIn_trimAround
    {line before : Text}
    {fault : Fault}
    (draft : Draft)
    (result :
      scanNode delimiters draft.unread = .found skipped block after rest)
    (solidAfter : after.Solid)
    (passes :
      (draft.pass skipped block.source rest).Passes
        ((draft.pass skipped block.source rest).trimAround block) line)
    (found :
      faultIn after
          ((draft.pass skipped block.source rest).trimAround block).unread =
        some (before, fault)) :
    faultIn delimiters draft.unread =
      some (skipped ++ (block.source ++ (line ++ before)), fault) := by
  have isRest : rest = line ++ _ := passes.unread_eq
  rw [faultIn_of_found result, isRest, faultIn_blank solidAfter passes.blank,
    found]
  rfl

/--
A run that fails reports the first fault of what is unread, on its line, less
one for each break that was not counted.
-/
theorem line_of_run
    (values : PlainValues store known)
    (lambdas : Lambdas)
    (fuel : Nat)
    (within : world.Within store known)
    {draft : Draft}
    (clean : ∀ pair ∈ pairsIn delimiters draft.unread, pair.Clean)
    {error : RenderError}
    (failed :
      ((cautious lambdas).run fuel [] (draft, delimiters) world).1 =
        .error (.failed error)) :
    ∃ before fault line,
      faultIn delimiters draft.unread = some (before, fault) ∧
      error = fault.onLine line ∧
      line + missedBreaks lambdas fuel (draft, delimiters) world =
        draft.line + before.countLineBreaks := by
  induction fuel generalizing draft delimiters with
  | zero => cases failed
  | succ fuel ih =>
    have solids : ∀ pair ∈ pairsAtNext draft.unread delimiters, pair.Solid :=
      fun pair member =>
      (clean pair (pairsAtNext_subset delimiters draft.unread pair member)).1
    have solid : delimiters.Solid := solids delimiters List.mem_cons_self
    have bold :
        (cautious lambdas).step ((cautious lambdas).render fuel) []
            (draft, delimiters) =
          step lambdas ((cautious lambdas).render fuel) []
            (draft, delimiters) :=
      if_pos solids
    rw [missedBreaks_succ, bold]
    rw [Machine.run_apply, bold] at failed
    cases result : scanNode delimiters draft.unread with
    | finished =>
      simp only [step, result] at failed
      cases failed
    | faulty before fault =>
      simp only [step, result] at failed ⊢
      cases failed
      refine ⟨before, fault, _, faultIn_of_faulty result, rfl, ?_⟩
      rw [← line_of_faulty draft result solid]
      exact congrArg _ (Nat.zero_add _)
    | found skipped block after rest =>
      have solidAfter : after.Solid :=
        solids after (by simp [pairsAtNext, result])
      have expanded :=
        settles_faultlessBlock values within lambdas fuel clean result
          (draft.pass skipped block.source rest) world rfl
      rw [step_of_found result] at failed ⊢
      generalize (draft.pass skipped block.source rest).blockText lambdas
        ((cautious lambdas).render fuel) [] delimiters block world = outcome
        at expanded failed ⊢
      rcases outcome with ⟨stop | text, left⟩
      · cases failed
        exact absurd rfl (expanded.1 error)
      · rcases expanded with ⟨-, rfl⟩
        rcases survey_of_trimAround result solidAfter with
          ⟨⟨tags, isAfter, surveyed⟩, -⟩
        rcases passes_trimAround (draft.pass skipped block.source rest)
            block with ⟨line, passes⟩
        have cleanAfter :
            ∀ pair ∈ pairsIn after
                (((draft.pass skipped block.source rest).trimAround block).write
                  text).unread,
              pair.Clean :=
          fun pair member =>
            clean pair (pairsIn_of_surveyed isAfter surveyed pair member)
        rcases ih cleanAfter failed with
          ⟨before, fault, reported, found, isError, counted⟩
        rcases faultIn_eq_some found with ⟨more, tail⟩
        refine ⟨_, fault, reported,
          faultIn_trimAround draft result solidAfter passes found, isError, ?_⟩
        rw [← line_trimAround draft result solid solidAfter passes tail]
        have counted' : reported + _ =
            ((draft.pass skipped block.source rest).trimAround block).line +
              before.countLineBreaks := counted
        rw [← counted', Nat.add_assoc]

end Draft

/-- A reader stands in the middle of a line break. -/
def Reader.splitsBreak (reader : Reader) : Bool :=
  (reader.buffer.text.splitAt? reader.position).any fun (before, after) =>
    decide (Text.SplitsBreak before after)

theorem Reader.Holds.splitsBreak_eq
    {reader : Reader}
    {draft : Draft}
    (holds : reader.Holds draft) :
    reader.splitsBreak = draft.splitsBreak := by
  have cut :
      reader.buffer.text.splitAt? reader.position =
        some (draft.written, draft.unread) :=
    Text.splitAt?_eq_some_iff.2 ⟨holds.standing.text_eq,
      holds.standing.position_eq.symm⟩
  rw [splitsBreak, cut]
  rfl

/-- At related heads as many breaks are split on either side. -/
theorem countP_splitsBreak
    {heads : List ((Draft × Delimiters) × World)}
    {heads' : List ((Reader × Delimiters) × World)}
    (alike :
      List.Forall₂
        (fun head head' => HoldsAlike head.1 head'.1 ∧ head.2 = head'.2) heads
        heads') :
    heads'.countP (fun head => head.1.1.splitsBreak) =
      heads.countP fun head => head.1.1.splitsBreak := by
  induction alike with
  | nil => rfl
  | cons both _ ih =>
    rw [List.countP_cons, List.countP_cons, ih, both.1.1.splitsBreak_eq]

variable
    {store : Store}
    {data : Value}
    {template : Text}
    {delimiters : Delimiters}

/--
Rendering a template without partials, with data without lambdas and primitive
conversions, can only fail with the fault that the check reports.  The check
reports it on the line that its tag starts on.  Rendering reports that line,
less one for each time that reading went on at a line feed right behind a
carriage return: the two are taken for one line break, although the carriage
return was written for an earlier tag.
-/
theorem interpretWithin_line
    (clean : ∀ pair ∈ pairsIn delimiters template, pair.Clean)
    (plain : PlainData store data)
    (lambdas : Lambdas)
    (fuel : Nat)
    {error : RenderError}
    (failed :
      (interpretWithin lambdas fuel template [] delimiters
          ⟨store, .ofRoot data⟩).1 =
        .error (.failed error)) :
    ∃ before fault rest line,
      faultIn delimiters template = some (before, fault) ∧
      template = before ++ (fault.tag ++ rest) ∧
      validate template delimiters =
        .error (fault.onLine (1 + before.countLineBreaks)) ∧
      error = fault.onLine line ∧
      line +
          ((bufferMachine lambdas).heads fuel []
            (Reader.ofText template, delimiters) ⟨store, .ofRoot data⟩).countP
            (fun head => head.1.1.splitsBreak) =
        1 + before.countLineBreaks := by
  have within :
      World.Within store
        (fun value => value = .bool true ∨ data.Reaches store value)
        ⟨store, .ofRoot data⟩ :=
    World.within_ofRoot (.inr .data)
  have settled :
      Settles _ _ _
        ((Draft.cautious lambdas).run fuel []
          (Draft.ofText template, delimiters)) :=
    Draft.settles_run plain.values Draft.soundPartial_of_none lambdas fuel
      within clean
  have solid := solidRun_of_settles settled id
  have failedDraft :
      ((Draft.cautious lambdas).run fuel [] (Draft.ofText template, delimiters)
          ⟨store, .ofRoot data⟩).1 =
        .error (.failed error) := by
    rw [solid.eq_cautious] at failed
    exact failed
  rcases Draft.line_of_run plain.values lambdas fuel within clean
      failedDraft with ⟨before, fault, line, found, isError, counted⟩
  rcases faultIn_eq_some found with ⟨rest, split⟩
  have found' : faultIn delimiters template = some (before, fault) := found
  have checked := validate_eq_faultIn template delimiters
  rw [found'] at checked
  refine ⟨before, fault, rest, line, found, split, checked, isError, ?_⟩
  rw [countP_splitsBreak solid.related_heads]
  exact counted

/--
A carriage return of the data that meets a line feed, and one of the template
that does.
-/
theorem interpretWithin_line_split :
    let store : Store := ⟨#[[("x", .string "a\r")]]⟩
    let data : Value := .map ⟨⟨0⟩, none⟩
    let template := "\r<!c>\n\n<x>\n</b>".toList
    let delimiters : Delimiters := ⟨['<'], ['>']⟩
    ∃ before fault rest line,
      faultIn delimiters template = some (before, fault) ∧
      template = before ++ (fault.tag ++ rest) ∧
      validate template delimiters =
        .error (fault.onLine (1 + before.countLineBreaks)) ∧
      RenderError.unbalancedSection "</b>".toList 3 = fault.onLine line ∧
      line +
          ((bufferMachine .none).heads 20 []
            (Reader.ofText template, delimiters) ⟨store, .ofRoot data⟩).countP
            (fun head => head.1.1.splitsBreak) =
        1 + before.countLineBreaks := by
  intro store data template delimiters
  apply interpretWithin_line
  · decide +kernel
  · exact plainData_of_isPlain (by decide) (by decide)
  · decide +kernel

/--
A carriage return of the data hides the line break of the template that comes
after it.
-/
theorem line_behind_carriage_return :
    let store : Store := ⟨#[[("x", .string "a\r")]]⟩
    let template := "\x7b\x7bx\x7d\x7d\n\x7b\x7b/b\x7d\x7d".toList
    let tag := "\x7b\x7b/b\x7d\x7d".toList
    (interpretWithin .none 20 template [] .standard
        ⟨store, .ofRoot (.map ⟨⟨0⟩, none⟩)⟩).1 =
      .error (.failed (.unbalancedSection tag 1)) ∧
    validate template .standard = .error (.unbalancedSection tag 2) := by
  decide +kernel

end Mustache
