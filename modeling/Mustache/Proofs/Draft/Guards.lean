import Mustache.Proofs.Draft.Completion
import Mustache.Proofs.Render.Stack
import Mustache.Proofs.Scan.Sign

/-!
# The signs around a body

The body of a section is rendered between two equals signs, or before one if it
starts a line, and the signs are removed from the text that comes out.  With
pairs that hold neither blanks nor equals signs they are still there: they are
text, no tag reaches into them, and no line that is cut does.

That the signs are the same ones, and not others that the body or the data have
put in their place, shows when any other signs are put around the body: then
these come out, with the same text between them (`interpretWithin_guarded`).  So
what an iteration contributes is that text, and every equals sign at its edges
is kept.
-/

namespace Mustache

open RenderM

/-- A sign before a body, unless the body starts a line. -/
def leadingSign (sign : Char) (startsLine : Bool) : Text :=
  if startsLine then [] else [sign]

/--
A sign after a body, and another one before it unless the body starts a line.
-/
def flanked (first last : Char) (body : Text) (startsLine : Bool) : Text :=
  leadingSign first startsLine ++ (body ++ [last])

theorem guarded_eq_flanked
    (body : Text)
    (startsLine : Bool) :
    guarded body startsLine = flanked '=' '=' body startsLine := by
  cases startsLine <;> rfl

theorem unguarded_guarded
    (body : Text)
    (startsLine : Bool) :
    unguarded (guarded body startsLine) startsLine = body := by
  cases startsLine <;>
    simp [unguarded, guarded, dropLeadingGuard, dropTrailingGuard]

/--
A sign next to a tag of some pairs is no part of the tag, nor of the blanks
around it.
-/
structure StandsApart (pairs : List Delimiters) (sign : Char) : Prop where
  solid : Text.isBlank sign = false
  /-- A brace behind a triple tag would be taken for a part of it. -/
  notBrace : sign ≠ '}'
  lacks : ∀ pair ∈ pairs, pair.Lacks sign

/-! ## Drafts with other signs -/

namespace Draft

/-- A solid sign and another one, or nothing twice. -/
inductive Fences : Text → Text → Prop where
  | nothing : Fences [] []
  | signs
      {sign other : Char}
      (solid : Text.isBlank sign = false)
      (solidOther : Text.isBlank other = false) :
      Fences [sign] [other]

namespace Fences

variable {fence fence' : Text}

theorem symm (fences : Fences fence fence') : Fences fence' fence := by
  cases fences with
  | nothing => exact .nothing
  | signs solid solidOther => exact .signs solidOther solid

/-- No indentation reaches beyond a sign, whichever it is. -/
theorem indentation_eq
    (fences : Fences fence fence')
    (text : Text) :
    Text.indentationAtEnd? (fence' ++ text).reverse =
      Text.indentationAtEnd? (fence ++ text).reverse := by
  cases fences with
  | nothing => rfl
  | signs solid solidOther =>
    have inked {sign : Char} (solid : Text.isBlank sign = false) :
        Text.indentationAtEnd? [sign].reverse = none :=
      Text.indentationAtEnd?_of_getLast rfl solid
    rw [Text.indentationAtEnd?_append (inked solid),
      Text.indentationAtEnd?_append (inked solidOther)]

theorem split
    (fences : Fences fence fence')
    {text kept blanks : Text}
    (blank : ∀ character ∈ blanks, Text.isBlank character = true)
    (split : fence ++ text = kept ++ blanks) :
    ∃ left, kept = fence ++ left ∧ text = left ++ blanks := by
  cases fences with
  | nothing => exact ⟨kept, rfl, split⟩
  | signs solid _ => exact split_of_solid_last rfl solid blank split

end Fences

/-- No blanks reach beyond a solid sign behind them. -/
theorem split_of_solid_end
    {text line rest : Text}
    {sign : Char}
    (solid : Text.isBlank sign = false)
    (blank : ∀ character ∈ line, Text.isBlank character = true)
    (split : text ++ [sign] = line ++ rest) :
    ∃ left, text = line ++ left ∧ rest = left ++ [sign] := by
  rcases List.eq_nil_or_concat rest with rfl | ⟨left, last, rfl⟩
  · rw [List.append_nil] at split
    have isBlank := blank sign (by simp [← split])
    rw [solid] at isBlank
    cases isBlank
  · rw [List.concat_eq_append, ← List.append_assoc] at split
    rcases List.append_inj' split rfl with ⟨rfl, isLast⟩
    exact ⟨left, rfl, by rw [List.concat_eq_append, isLast]⟩

/--
Two drafts with the same texts, and other signs before the one and behind the
other.
-/
structure Resigned
    (fence fence' : Text)
    (sign other : Char)
    (draft draft' : Draft) : Prop where
  written_eq :
    ∃ text, draft.written = fence ++ text ∧ draft'.written = fence' ++ text
  unread_eq :
    ∃ text, draft.unread = text ++ [sign] ∧ draft'.unread = text ++ [other]

namespace Resigned

variable {fence fence' : Text} {sign other : Char} {draft draft' : Draft}

theorem write
    (resigned : Resigned fence fence' sign other draft draft')
    (text : Text) :
    Resigned fence fence' sign other (draft.write text)
      (draft'.write text) where
  written_eq := by
    rcases resigned.written_eq with ⟨written, isWritten, isWritten'⟩
    exact ⟨written ++ text, by simp [Draft.write, isWritten],
      by simp [Draft.write, isWritten']⟩
  unread_eq := resigned.unread_eq

theorem pass
    (resigned : Resigned fence fence' sign other draft draft')
    (skipped source left : Text) :
    Resigned fence fence' sign other
      (draft.pass skipped source (left ++ [sign]))
      (draft'.pass skipped source (left ++ [other])) where
  written_eq := by
    rcases resigned.written_eq with ⟨written, isWritten, isWritten'⟩
    exact ⟨written ++ skipped, by simp [Draft.pass, isWritten],
      by simp [Draft.pass, isWritten']⟩
  unread_eq := ⟨left, rfl, rfl⟩

variable
    (fences : Fences fence fence')
    (solid : Text.isBlank sign = false)
    (solidOther : Text.isBlank other = false)
include fences solid solidOther

theorem sameLine (resigned : Resigned fence fence' sign other draft draft') :
    SameLine draft draft' := by
  rcases resigned with
    ⟨⟨written, isWritten, isWritten'⟩, unread, isUnread, isUnread'⟩
  have inked {sign : Char} (solid : Text.isBlank sign = false) :
      Text.lineAtStart? [sign] = none :=
    Text.lineAtStart?_of_head rfl solid
  constructor
  · rw [isWritten, isWritten', fences.indentation_eq]
  · rw [isUnread, isUnread', Text.lineAtStart?_append (inked solid),
      Text.lineAtStart?_append (inked solidOther)]

/-- The lines that are cut around a block do not reach the signs. -/
theorem trimAround
    (resigned : Resigned fence fence' sign other draft draft')
    (block : Block) :
    Resigned fence fence' sign other (draft.trimAround block)
      (draft'.trimAround block) := by
  rcases (resigned.sameLine fences solid solidOther).cutAlike block with
    ⟨indentation, line, cuts, cuts', inline, blank⟩
  rcases resigned with
    ⟨⟨written, isWritten, isWritten'⟩, unread, isUnread, isUnread'⟩
  have isIndentation :
      ∀ character ∈ indentation.getD [], Text.isBlank character = true :=
    fun character member =>
      Text.isBlank_of_isInlineBlank (inline character member)
  constructor
  · rcases fences.split isIndentation
        (isWritten.symm.trans cuts.written_eq) with ⟨kept, isKept, rfl⟩
    rcases fences.symm.split isIndentation
        (isWritten'.symm.trans cuts'.written_eq) with ⟨kept', isKept', split⟩
    rcases List.append_cancel_right split with rfl
    exact ⟨kept, isKept, isKept'⟩
  · rcases split_of_solid_end solid blank
        (isUnread.symm.trans cuts.unread_eq) with ⟨left, rfl, isLeft⟩
    rcases split_of_solid_end solidOther blank
        (isUnread'.symm.trans cuts'.unread_eq) with ⟨left', split, isLeft'⟩
    rcases List.append_cancel_left split with rfl
    exact ⟨left, isLeft, isLeft'⟩

end Resigned

variable
    {lambdas : Lambdas}
    {partials : Partials}
    {delimiters : Delimiters}
    {draft draft' : Draft}
    {world final : World}
    {text fence fence' : Text}
    {sign other : Char}

/--
Where a text is the last one, a draft completes to what was written and that
text.
-/
theorem completes_last_iff
    {skipped : Text}
    {piece : Piece}
    (solid : delimiters.Solid)
    (result : scan delimiters draft.unread = .found skipped piece [])
    (isText : piece.kind = .text) :
    Completes lambdas partials draft delimiters world text final ↔
      text = draft.written ++ draft.unread ∧ final = world := by
  have isUnread := (scan_eq_found result).1
  rw [List.append_nil] at isUnread
  rw [completes_text_iff result isText draft.written draft.line draft.line,
    ← isUnread]
  constructor
  · exact Completes.of_nil
  · rintro ⟨rfl, rfl⟩
    have ended :
        Completes lambdas partials
          ⟨draft.written ++ draft.unread, [], draft.line⟩ delimiters final _
          final :=
      .finished solid (by simp only [scanNode, scan_nil])
    rwa [List.append_nil] at ended

/--
A run goes the same way with other signs, and leaves them where they were.
-/
theorem Completes.resign
    (completes : Completes lambdas partials draft delimiters world text final)
    (resigned : Resigned fence fence' sign other draft draft')
    (fences : Fences fence fence')
    (apart : StandsApart (pairsIn delimiters draft.unread) sign)
    (apartOther : StandsApart (pairsIn delimiters draft.unread) other) :
    ∃ inner,
      text = fence ++ (inner ++ [sign]) ∧
      Completes lambdas partials draft' delimiters world
        (fence' ++ (inner ++ [other])) final := by
  induction completes generalizing draft' with
  | @finished draft delimiters world solid result =>
    rcases resigned.unread_eq with ⟨unread, isUnread, -⟩
    rw [isUnread] at result
    exact absurd result
      (scanNode_sign_ne_finished (apart.lacks delimiters List.mem_cons_self)
        unread)
  | @block draft delimiters after world between final skipped rest made text
      block needed solid result stands further ih =>
    have whole := Completes.block solid result stands further
    rcases resigned.unread_eq with ⟨unread, isUnread, isUnread'⟩
    have lacks : ∀ pair ∈ pairsIn delimiters (unread ++ [sign]),
        pair.Lacks sign ∧ pair.Lacks other := by
      rw [← isUnread]
      exact fun pair member =>
        ⟨apart.lacks pair member, apartOther.lacks pair member⟩
    have isBlock := result
    rw [isUnread] at isBlock
    rcases scanNode_resign apartOther.notBrace lacks isBlock with
      ⟨left, rfl, again⟩ | ⟨last, last', isLast, isLast', isText, isText'⟩
    · rw [← isUnread'] at again
      have passed := resigned.pass skipped block.source left
      have same := passed.sameLine fences apart.solid apartOther.solid
      have onward :=
        (passed.trimAround fences apart.solid apartOther.solid block).write made
      rcases survey_of_trimAround result further.solid with
        ⟨⟨tags, onTheWay, surveyed⟩, -⟩
      have handed := pairsIn_of_surveyed onTheWay surveyed
      rcases ih onward
          ⟨apart.solid, apart.notBrace,
            fun pair member => apart.lacks pair (handed pair member)⟩
          ⟨apartOther.solid, apartOther.notBrace,
            fun pair member => apartOther.lacks pair (handed pair member)⟩ with
        ⟨inner, isText, later⟩
      rw [← same.blockText_eq] at stands
      exact ⟨inner, isText, .block solid again stands later⟩
    · rw [← isUnread] at isLast
      rw [← isUnread'] at isLast'
      rcases resigned.written_eq with ⟨written, isWritten, isWritten'⟩
      rcases (completes_last_iff solid isLast isText).1 whole with ⟨rfl, rfl⟩
      refine ⟨written ++ unread, by simp [isWritten, isUnread], ?_⟩
      rw [completes_last_iff solid isLast' isText']
      exact ⟨by simp [isWritten', isUnread'], rfl⟩

/-- The sign before a body is text, so a run may start behind it. -/
theorem completes_flanked_iff
    {first last : Char}
    (lacks : delimiters.Lacks first)
    (body : Text)
    (startsLine : Bool) :
    Completes lambdas partials (ofText (flanked first last body startsLine))
      delimiters world text final ↔
      Completes lambdas partials
        ⟨leadingSign first startsLine, body ++ [last], 1⟩ delimiters world text
        final := by
  cases startsLine with
  | true => exact Iff.rfl
  | false =>
    exact completes_cons_iff (not_opensAt_of_notMem lacks.opening _) [] 1 1

end Draft

/-! ## Bodies between signs -/

section

variable
    {lambdas : Lambdas}
    {partials : Partials}
    {delimiters : Delimiters}
    {body : Text}
    {startsLine : Bool}

theorem pairsIn_flanked
    {first last : Char}
    (lacks : delimiters.Lacks first) :
    pairsIn delimiters (flanked first last body startsLine) =
      pairsIn delimiters (body ++ [last]) := by
  cases startsLine with
  | true => rfl
  | false =>
    have closed := not_opensAt_of_notMem lacks.opening (body ++ [last])
    exact congrArg (fun surveyed => pairsOf delimiters surveyed.1)
      ((passesText_survey delimiters []).cons closed)

theorem standsApart_guard
    (clean :
      ∀ pair ∈ pairsIn delimiters (guarded body startsLine), pair.Clean) :
    StandsApart (pairsIn delimiters (guarded body startsLine)) '=' :=
  ⟨by decide, by decide, fun pair member => (clean pair member).2⟩

/--
The signs that a body is put between come out around what stands for the body,
and so do any other signs around the same text.
-/
theorem interpretWithin_guarded
    {fuel : Nat}
    {world left : World}
    {text : Text}
    (clean : ∀ pair ∈ pairsIn delimiters (guarded body startsLine), pair.Clean)
    (renders :
      interpretWithin lambdas fuel (guarded body startsLine) partials delimiters
          world =
        (.ok text, left)) :
    ∃ inner,
      text = guarded inner startsLine ∧
      ∀ first last,
        StandsApart (pairsIn delimiters (guarded body startsLine)) first →
        StandsApart (pairsIn delimiters (guarded body startsLine)) last →
        ∃ enough,
          ∀ more,
            enough ≤ more →
            interpretWithin lambdas more (flanked first last body startsLine)
                partials delimiters world =
              (.ok (flanked first last inner startsLine), left) := by
  have guard := standsApart_guard clean
  have completes := Draft.completes_of_interpretWithin
    (fun pair member => (clean pair member).1) renders
  have lacks := guard.lacks delimiters List.mem_cons_self
  rw [guarded_eq_flanked, Draft.completes_flanked_iff lacks] at completes
  rw [guarded_eq_flanked, pairsIn_flanked lacks] at guard ⊢
  have other (first last : Char)
      (apartFirst : StandsApart (pairsIn delimiters (body ++ ['='])) first)
      (apartLast : StandsApart (pairsIn delimiters (body ++ ['='])) last) :
      ∃ inner,
        text = guarded inner startsLine ∧
        Draft.Completes lambdas partials
          (Draft.ofText (flanked first last body startsLine)) delimiters world
          (flanked first last inner startsLine) left := by
    have fences :
        Draft.Fences (leadingSign '=' startsLine)
          (leadingSign first startsLine) := by
      cases startsLine with
      | true => exact .nothing
      | false => exact .signs guard.solid apartFirst.solid
    have resigned :
        Draft.Resigned (leadingSign '=' startsLine)
          (leadingSign first startsLine) '=' last
          ⟨leadingSign '=' startsLine, body ++ ['='], 1⟩
          ⟨leadingSign first startsLine, body ++ [last], 1⟩ :=
      ⟨⟨[], by simp, by simp⟩, body, rfl, rfl⟩
    rcases completes.resign resigned fences guard apartLast with
      ⟨inner, isText, later⟩
    refine ⟨inner, isText.trans (guarded_eq_flanked inner startsLine).symm, ?_⟩
    exact
      (Draft.completes_flanked_iff
        (apartFirst.lacks delimiters List.mem_cons_self) body startsLine).2
      later
  rcases other '=' '=' guard guard with ⟨inner, rfl, -⟩
  refine ⟨inner, rfl, ?_⟩
  intro first last apartFirst apartLast
  rcases other first last apartFirst apartLast with ⟨inner', isText, later⟩
  have same := congrArg (unguarded · startsLine) isText
  simp only [unguarded_guarded] at same
  rw [same]
  exact Draft.interpretWithin_of_completes later

/--
Where the pairs in a section's body hold neither blanks nor equals signs, an
iteration whose body is rendered contributes just what comes out between the two
signs.  They are the signs that were put there: in the place of any others,
these come out, and the text between them is the same.
-/
theorem renderItems_guards_exact
    {fuel : Nat}
    (clean : ∀ pair ∈ pairsIn delimiters (guarded body startsLine), pair.Clean)
    (items : List Value)
    (world : World) :
    (∃ texts after,
      Iterates lambdas
        (interpretWithin lambdas fuel (guarded body startsLine) partials
          delimiters)
        startsLine world.stack items world.store texts after ∧
      renderItems lambdas (interpretWithin lambdas fuel) partials delimiters
          body startsLine items world =
        (texts.map List.flatten, ⟨after, world.stack⟩)) ∧
    ∀ within text left,
      interpretWithin lambdas fuel (guarded body startsLine) partials delimiters
          within =
        (.ok text, left) →
      ∃ inner,
        text = guarded inner startsLine ∧
        unguarded text startsLine = inner ∧
        ∀ first last,
          StandsApart (pairsIn delimiters (guarded body startsLine)) first →
          StandsApart (pairsIn delimiters (guarded body startsLine)) last →
          ∃ enough,
            ∀ more,
              enough ≤ more →
              interpretWithin lambdas more (flanked first last body startsLine)
                  partials delimiters within =
                (.ok (flanked first last inner startsLine), left) := by
  constructor
  · exact iterates_renderItems (restores_expandRest lambdas fuel partials _)
      lambdas items world.store world.stack
  · intro within text left renders
    rcases interpretWithin_guarded clean renders with ⟨inner, rfl, others⟩
    exact ⟨inner, rfl, unguarded_guarded inner startsLine, others⟩

/--
Equals signs at both edges, from the data, from an inner section and from a
partial.
-/
theorem renderItems_guards_exact_edges :
    let world : World :=
      ⟨⟨#[[("x", .string "="), ("t", .bool true)]]⟩, .ofRoot (.map ⟨⟨0⟩, none⟩)⟩
    let body : Text :=
      "\x7b\x7bx\x7d\x7d\x7b\x7b#t\x7d\x7d\n=\x7b\x7b/t\x7d\x7d\n\x7b\x7b>p\x7d\x7d".toList
    let partials : Partials := [("p", "=")]
    (∀ pair ∈ pairsIn .standard (guarded body false), pair.Clean) ∧
    (interpretWithin .none 20 (guarded body false) partials .standard world).1 =
      .ok (guarded "=\n=\n=".toList false) ∧
    StandsApart (pairsIn .standard (guarded body false)) '<' ∧
    StandsApart (pairsIn .standard (guarded body false)) '*' ∧
    ∃ inner,
      guarded "=\n=\n=".toList false = guarded inner false ∧
      unguarded (guarded "=\n=\n=".toList false) false = inner ∧
      ∃ enough,
        ∀ more,
          enough ≤ more →
          (interpretWithin .none more (flanked '<' '*' body false) partials
              .standard world).1 =
            .ok (flanked '<' '*' inner false) := by
  intro world body partials
  have clean : ∀ pair ∈ pairsIn .standard (guarded body false), pair.Clean := by
    decide +kernel
  have renders :
      (interpretWithin .none 20 (guarded body false) partials .standard
          world).1 =
        .ok (guarded "=\n=\n=".toList false) := by
    decide +kernel
  have before : StandsApart (pairsIn .standard (guarded body false)) '<' :=
    ⟨by decide, by decide, by decide +kernel⟩
  have behind : StandsApart (pairsIn .standard (guarded body false)) '*' :=
    ⟨by decide, by decide, by decide +kernel⟩
  have rendered :
      interpretWithin .none 20 (guarded body false) partials .standard world =
        (.ok (guarded "=\n=\n=".toList false), _) :=
    Prod.ext renders rfl
  rcases (renderItems_guards_exact clean [.bool true] world).2 world _ _
      rendered with ⟨inner, isText, isInner, others⟩
  rcases others '<' '*' before behind with ⟨enough, same⟩
  exact ⟨clean, renders, before, behind, inner, isText, isInner, enough,
    fun more le => congrArg Prod.fst (same more le)⟩

/--
A closing delimiter that is a blank goes with a line that is blank but for it.
The inner section ends in such a line, so the sign at the end of the body is cut
off with it, and the equals sign that a lambda returned is taken for the sign.
-/
theorem guard_cut_with_blank_closer :
    let lambdas : Lambdas := ⟨fun _ _ => pure (.string "="), fun _ _ => pure ()⟩
    let world : World :=
      ⟨⟨#[[("f", .lambda ⟨⟨0⟩, none, none⟩)]]⟩, .ofRoot (.map ⟨⟨0⟩, none⟩)⟩
    let delimiters : Delimiters := ⟨['<'], ['\x02']⟩
    let body : Text := "x\n<#f\n  \x02 </f \x02\n\n".toList
    Delimiters.parse? "< \x02".toList = some delimiters ∧
    (∀ pair ∈ pairsIn delimiters (guarded body false),
      pair.Lacks '=' ∧ pair.Lacks '*') ∧
    (interpretWithin lambdas 20 (guarded body false) [] delimiters world).1 =
      .ok "=x\n=".toList ∧
    (interpretWithin lambdas 20 (flanked '*' '*' body false) [] delimiters
        world).1 =
      .ok "*x\n=".toList ∧
    (renderItems lambdas (interpretWithin lambdas 20) [] delimiters body false
        [.bool true] world).1 =
      .ok "x\n".toList := by
  decide +kernel

end

end Mustache
