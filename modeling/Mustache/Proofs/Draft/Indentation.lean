import Mustache.Proofs.Draft.Completion
import Mustache.Proofs.Scan.Outline
import Mustache.Proofs.Scan.Written
import Mustache.Proofs.Text.Lines

/-!
# Indentations add up

An indentation goes before each line of a text that has content, and leaves the
line breaks alone.  So a text that is indented twice has both indentations
before those lines (`indent_acts_by_lines`).

A partial that is alone on its line is rendered with the tag's indentation
before its lines.  If one of them holds another partial and nothing else, that
tag has both indentations before it, and its text is indented by both.
-/

namespace Mustache

open RenderM

/-- A line holds a partial tag and nothing else, behind an indentation. -/
structure Text.IncludesAlone (line indentation name : Text) : Prop where
  blank : ∀ character ∈ indentation, isInlineBlank character = true
  tag :
    ∃ body rest,
      line = indentation ++ (writtenTag ['>'] body ++ rest) ∧
      body.trim = name ∧
      ¬['}', '}'] <:+: body ++ ['}'] ∧
      rest.lineAtStart? = some rest

/-- An indentation for the line goes before that of the tag. -/
theorem Text.IncludesAlone.indentLine
    {line indentation outer name : Text}
    (alone : line.IncludesAlone indentation name)
    (blank : ∀ character ∈ outer, isInlineBlank character = true) :
    (indentLine outer line).IncludesAlone (outer ++ indentation) name where
  blank := List.forall_mem_append.2 ⟨blank, alone.blank⟩
  tag := by
    rcases alone.tag with ⟨body, rest, isLine, named, noClosing, isRest⟩
    have content : hasContent line = true := by
      simp [hasContent, isLine, writtenTag, isLineBreak]
    refine ⟨body, rest, ?_, named, noClosing, isRest⟩
    rw [Text.indentLine, if_pos content, isLine, List.append_assoc]

/-- A partial tag, as it is found. -/
def writtenInclusion (body : Text) : Piece :=
  ⟨.inclusion, body.trim, writtenTag ['>'] body, none⟩

namespace Draft

variable
    {lambdas : Lambdas}
    {partials : Partials}
    {delimiters : Delimiters}
    {draft : Draft}
    {reader : Reader}

/-- What a run with two texts does next, a run in place does next. -/
theorem run_inPlace
    (holds : reader.Holds draft)
    (solid : ∀ pair ∈ pairsAtNext draft.unread delimiters, pair.Solid)
    (lambdas : Lambdas)
    (partials : Partials)
    (fuel : Nat)
    (world : World) :
    match step lambdas (interpretWithin lambdas fuel) partials
        (draft, delimiters) world with
    | (.ok (.inl text), left) =>
      (bufferMachine lambdas).run (fuel + 1) partials (reader, delimiters)
          world =
        (.ok text, left)
    | (.ok (.inr (draft', after)), left) =>
      ∃ reader' : Reader,
        reader'.Holds draft' ∧
        (bufferMachine lambdas).run (fuel + 1) partials (reader, delimiters)
            world =
          (bufferMachine lambdas).run fuel partials (reader', after) left
    | (.error stop, left) =>
      (bufferMachine lambdas).run (fuel + 1) partials (reader, delimiters)
          world =
        (.error stop, left) := by
  have steps :=
    stepsInPlace holds solid lambdas (interpretWithin lambdas fuel) partials
      world
  rw [Machine.run_apply, bufferMachine_step]
  generalize step lambdas (interpretWithin lambdas fuel) partials
      (draft, delimiters) world = outcome at steps ⊢
  rcases outcome with ⟨stop | text | ⟨draft', after⟩, left⟩
  · have stepped : expandNext lambdas (interpretWithin lambdas fuel) partials
        (reader, delimiters) world = (.error stop, left) := steps
    simp only [stepped]
  · have stepped : expandNext lambdas (interpretWithin lambdas fuel) partials
        (reader, delimiters) world = (.ok (.inl text), left) := steps
    simp only [stepped]
  · rcases steps with ⟨reader', stepped, held⟩
    exact ⟨reader', held, by simp only [stepped]⟩

/-- Where nothing is left to read, a run comes to what was written. -/
theorem run_finished
    {written : Text}
    {line : Nat}
    (holds : reader.Holds ⟨written, [], line⟩)
    (fuel : Nat)
    (world : World) :
    (bufferMachine lambdas).run (fuel + 1) partials (reader, .standard) world =
      (.ok written, world) := by
  have finished := scanNode_nil .standard
  have solid : ∀ pair ∈ pairsAtNext [] .standard, pair.Solid := by
    simp only [pairsAtNext, finished]
    decide
  have ran := run_inPlace holds solid lambdas partials fuel world
  have stepped : step lambdas (interpretWithin lambdas fuel) partials
      (⟨written, [], line⟩, .standard) world = (.ok (.inl written), world) := by
    simp only [step, finished, List.append_nil]
    rfl
  rw [stepped] at ran
  exact ran

/-- A tag that is all there is on its line is cut off with the whole line. -/
theorem trimLine_of_line
    {indentation rest : Text}
    (blank : ∀ character ∈ indentation, Text.isInlineBlank character = true)
    (isLine : rest.lineAtStart? = some rest)
    (line : Nat) :
    (Draft.mk indentation rest line).trimLine =
      (some indentation, ⟨[], [], line + rest.countLineBreaks⟩) := by
  have around : Text.lineBetween? indentation rest = some (indentation, rest) :=
    Text.lineBetween?_of_some
      (Text.indentationAtEnd?_eq_some_iff.2 ⟨blank, [], rfl, by simp⟩) isLine
  have before : (Draft.mk indentation rest line).written = [] ++ indentation :=
    rfl
  have behind : (Draft.mk [] rest line).unread = rest ++ [] :=
    (List.append_nil rest).symm
  simp only [trimLine, around]
  rw [dropIndentation_eq before, dropLine_eq behind]

/--
Behind its indentation, a partial that is alone on its line stands for its
indented text.
-/
theorem run_inclusion
    {indentation body rest : Text}
    {source : String}
    {line : Nat}
    (holds : reader.Holds ⟨indentation, writtenTag ['>'] body ++ rest, line⟩)
    (blank : ∀ character ∈ indentation, Text.isInlineBlank character = true)
    (noClosing : ¬['}', '}'] <:+: body ++ ['}'])
    (isLine : rest.lineAtStart? = some rest)
    (found : partials.get? (String.ofList body.trim) = some source)
    (nonempty : source ≠ "")
    (fuel : Nat)
    (world : World) :
    (bufferMachine lambdas).run (fuel + 1) partials (reader, .standard) world =
      interpretWithin lambdas fuel (Text.indent source.toList indentation)
        partials .standard world := by
  have isScan :
      scan .standard (writtenTag ['>'] body ++ rest) =
        .found [] (writtenInclusion body) rest :=
    scan_modifiedBody noClosing rfl (by decide) TokenKind.noConfusion
      TokenKind.noConfusion rest
  have isBlock : scanNode .standard (writtenTag ['>'] body ++ rest) =
      .found [] (.leaf (writtenInclusion body)) .standard rest := by
    simp only [scanNode, isScan]
    rfl
  have solid :
      ∀ pair ∈ pairsAtNext (writtenTag ['>'] body ++ rest) .standard,
        pair.Solid := by
    simp only [pairsAtNext, isBlock]
    decide
  obtain ⟨line', isPassed⟩ :
      ∃ line',
        (Draft.mk indentation (writtenTag ['>'] body ++ rest) line).pass []
            (Block.leaf (writtenInclusion body)).source rest =
          ⟨indentation, rest, line'⟩ :=
    ⟨_, congrArg (Draft.mk · rest _) (List.append_nil indentation)⟩
  have stands :
      (Draft.mk indentation rest line').blockText lambdas
          (interpretWithin lambdas fuel) partials .standard
          (.leaf (writtenInclusion body)) =
        interpretWithin lambdas fuel (Text.indent source.toList indentation)
          partials .standard := by
    simp only [blockText, leafText, writtenInclusion,
      trimLine_of_line blank isLine, Option.getD_some, includePartial, found]
    exact if_neg nonempty
  have ran := run_inPlace holds solid lambdas partials fuel world
  rw [step_of_found isBlock, isPassed, stands, trimAround_of_takesLine rfl,
    trimLine_of_line blank isLine] at ran
  cases fuel with
  | zero => exact ran
  | succ fuel =>
    generalize interpretWithin lambdas (fuel + 1)
        (Text.indent source.toList indentation) partials .standard
        world = outcome at ran ⊢
    rcases outcome with ⟨stop | made, left⟩
    · exact ran
    · rcases ran with ⟨reader', held, goesOn⟩
      rw [goesOn]
      exact run_finished held fuel left

/--
A text that is a partial tag alone on its line is rendered as the partial,
indented.
-/
theorem interpretWithin_of_includesAlone
    (lambdas : Lambdas)
    {template indentation name : Text}
    {source : String}
    (alone : template.IncludesAlone indentation name)
    (found : partials.get? (String.ofList name) = some source)
    (nonempty : source ≠ "") :
    ∃ spent,
      ∀ fuel world,
        interpretWithin lambdas (fuel + spent) template partials .standard
            world =
          interpretWithin lambdas fuel (Text.indent source.toList indentation)
            partials .standard world := by
  rcases alone with ⟨blank, body, rest, rfl, rfl, noClosing, isLine⟩
  by_cases bare : indentation = []
  · subst bare
    refine ⟨1, ?_⟩
    intro fuel world
    rw [interpretWithin_eq_render lambdas (fuel + 1)]
    exact run_inclusion (Reader.holds_ofText _) blank noClosing isLine found
      nonempty fuel world
  · refine ⟨2, ?_⟩
    intro fuel world
    have noBrace : '{' ∉ indentation :=
      fun member => absurd (blank '{' member) (by decide)
    have isBlock :
        scanNode .standard (indentation ++ (writtenTag ['>'] body ++ rest)) =
          .found [] (.leaf ⟨.text, indentation, indentation, none⟩) .standard
            (writtenTag ['>'] body ++ rest) :=
      scanNode_plain noBrace (.inr ⟨_, rfl⟩) bare
    have solid :
        ∀ pair ∈ pairsAtNext (indentation ++ (writtenTag ['>'] body ++ rest))
            .standard,
          pair.Solid := by
      simp only [pairsAtNext, isBlock]
      decide
    have ran :=
      run_inPlace
        (Reader.holds_ofText (indentation ++ (writtenTag ['>'] body ++ rest)))
        solid lambdas partials (fuel + 1) world
    rw [show
        ofText _ =
          Draft.mk [] (indentation ++ (writtenTag ['>'] body ++ rest)) 1 from
        rfl, step_of_found isBlock] at ran
    rcases ran with ⟨reader', held, goesOn⟩
    rw [interpretWithin_eq_render lambdas (fuel + 2)]
    exact goesOn.trans
      (run_inclusion held blank noClosing isLine found nonempty fuel world)

end Draft

/--
Partials within each other, each alone on its line, are rendered as the
innermost one.
-/
theorem interpretWithin_of_nested
    {lambdas : Lambdas}
    {partials : Partials}
    {indentation outer template middle text name inner : Text}
    (inline : ∀ character ∈ indentation, Text.isLineBreak character = false)
    (inlineOuter : ∀ character ∈ outer, Text.isLineBreak character = false)
    (alone : template.IncludesAlone outer name)
    (aloneInside : middle.IncludesAlone indentation inner)
    (single : middle.lines = [middle])
    (found : partials.get? (String.ofList name) = some (String.ofList middle))
    (foundInside :
      partials.get? (String.ofList inner) = some (String.ofList text))
    (nonempty : text ≠ []) :
    ∃ spent,
      ∀ fuel world,
        interpretWithin lambdas (fuel + spent) template partials .standard
            world =
          interpretWithin lambdas fuel
            (Text.indent (Text.indent text indentation) outer) partials
            .standard world := by
  have middleNonempty : middle ≠ [] := by
    rintro rfl
    cases single
  have isIndented :
      Text.indent middle outer = Text.indentLine outer middle := by
    rw [Text.indent_eq_flatten inlineOuter, single, List.map_singleton,
      List.flatten_singleton]
  rcases Draft.interpretWithin_of_includesAlone lambdas alone found
      (by simpa using middleNonempty) with ⟨spent, renders⟩
  rcases Draft.interpretWithin_of_includesAlone lambdas
      (aloneInside.indentLine alone.blank) foundInside
      (by simpa using nonempty) with ⟨spentInside, rendersInside⟩
  refine ⟨spentInside + spent, ?_⟩
  intro fuel world
  rw [← Nat.add_assoc, renders, String.toList_ofList, isIndented, rendersInside,
    String.toList_ofList, Text.indent_indent inline inlineOuter]

/--
An indentation goes before each line of a text that holds more than its break.
Two indentations add up, and so do those of partials within each other that are
alone on their lines.
-/
theorem indent_acts_by_lines
    {indentation outer : Text}
    (inline : ∀ character ∈ indentation, Text.isLineBreak character = false)
    (inlineOuter : ∀ character ∈ outer, Text.isLineBreak character = false)
    (text : Text) :
    text.lines.flatten = text ∧
    Text.indent text indentation =
      (text.lines.map (Text.indentLine indentation)).flatten ∧
    (Text.indent text indentation).countLineBreaks = text.countLineBreaks ∧
    Text.indent (Text.indent text indentation) outer =
      Text.indent text (outer ++ indentation) ∧
    (∀ line ∈ text.lines,
      ∀ name,
        line.IncludesAlone indentation name →
        (∀ character ∈ outer, Text.isInlineBlank character = true) →
        Text.indentLine outer line ∈ (Text.indent text outer).lines ∧
          (Text.indentLine outer line).IncludesAlone (outer ++ indentation)
            name) ∧
    ∀ (lambdas : Lambdas) (partials : Partials)
        (template middle name inner : Text),
      template.IncludesAlone outer name →
      middle.IncludesAlone indentation inner → middle.lines = [middle] →
      partials.get? (String.ofList name) = some (String.ofList middle) →
      partials.get? (String.ofList inner) = some (String.ofList text) →
      text ≠ [] →
      ∃ spent,
        ∀ fuel world,
          interpretWithin lambdas (fuel + spent) template partials .standard
              world =
            interpretWithin lambdas fuel
              (Text.indent (Text.indent text indentation) outer) partials
              .standard world := by
  refine ⟨text.flatten_lines, Text.indent_eq_flatten inline text,
    Text.countLineBreaks_indent inline text,
    Text.indent_indent inline inlineOuter text, ?_, ?_⟩
  · intro line member name alone blank
    refine ⟨?_, alone.indentLine blank⟩
    rw [Text.lines_indent inlineOuter]
    exact List.mem_map_of_mem member
  · intro lambdas partials template middle name inner alone aloneInside single
      found foundInside
    exact interpretWithin_of_nested inline inlineOuter alone aloneInside single
      found foundInside

/-- Every kind of line break, and partials within each other. -/
theorem indent_acts_by_lines_mixed :
    let text := "a\r\n\rb\n\nc".toList
    let partials : Partials :=
      [("item", String.ofList text), ("list", "  {{> item }}")]
    Text.lines text =
      ["a\r\n".toList, "\r".toList, "b\n".toList, "\n".toList, "c".toList] ∧
    Text.indent text "  ".toList = "  a\r\n\r  b\n\n  c".toList ∧
    Text.indent (Text.indent text "  ".toList) "\t".toList =
      Text.indent text "\t  ".toList ∧
    ∃ spent,
      ∀ fuel world,
        interpretWithin .none (fuel + spent) "\t{{>list}}\n".toList partials
            .standard world =
          interpretWithin .none fuel
            (Text.indent (Text.indent text "  ".toList) "\t".toList) partials
            .standard world := by
  intro text partials
  have inline :
      ∀ character ∈ "  ".toList, Text.isLineBreak character = false := by
    simp [Text.isLineBreak]
  have inlineOuter :
      ∀ character ∈ "\t".toList, Text.isLineBreak character = false := by
    simp [Text.isLineBreak]
  rcases indent_acts_by_lines inline inlineOuter text with
    ⟨-, -, -, both, -, nested⟩
  refine ⟨by decide, by decide, both, ?_⟩
  have alone :
      Text.IncludesAlone "\t{{>list}}\n".toList "\t".toList "list".toList :=
    ⟨by simp [Text.isInlineBlank]; decide, "list".toList, ['\n'], by decide,
      by decide, by decide, by decide⟩
  have aloneInside :
      Text.IncludesAlone "  {{> item }}".toList "  ".toList "item".toList :=
    ⟨by simp [Text.isInlineBlank]; decide, " item ".toList, [], by decide,
      by decide, by decide, by decide⟩
  exact nested .none partials _ _ _ _ alone aloneInside (by decide) (by decide)
    (by decide) (by decide)

end Mustache
