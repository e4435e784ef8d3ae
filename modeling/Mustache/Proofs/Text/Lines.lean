import Mustache.Proofs.Text.Indent

/-!
# The lines of a text

A line ends with a carriage return and a line feed, or with either of them
alone, and the last line of a text may do without.  Cutting a text into its
lines loses nothing (`flatten_lines`), and there are as many line breaks as
lines that end with one (`countLineBreaks_eq_countP`).

An indentation is put before every line that holds more than its break, and the
lines of the indented text are the indented lines (`lines_indent`).
-/

namespace Mustache.Text

/-- Put a character at the start of the first line. -/
def onFirstLine (character : Char) : List Text → List Text
  | [] => [[character]]
  | line :: others => (character :: line) :: others

/-- The lines of a text, each with the line break that it ends with. -/
def lines : Text → List Text
  | [] => []
  | '\r' :: '\n' :: rest => ['\r', '\n'] :: lines rest
  | '\r' :: rest => ['\r'] :: lines rest
  | '\n' :: rest => ['\n'] :: lines rest
  | character :: rest => onFirstLine character (lines rest)

/-- Does a line end with a line break? -/
def endsInBreak (line : Text) : Bool :=
  line.getLast?.any isLineBreak

/-- Does a line hold a character other than its break? -/
def hasContent (line : Text) : Bool :=
  line.any fun character => !isLineBreak character

/-- Put an indentation before a line that has content. -/
def indentLine (indentation line : Text) : Text :=
  if hasContent line then indentation ++ line else line

/-- Indent lines, the first of them only if it is whole. -/
def indentLines (indentation : Text) (lineStart : Bool) : List Text → List Text
  | [] => []
  | line :: others =>
    (if lineStart then indentLine indentation line else line) ::
      others.map (indentLine indentation)

theorem isLineBreak_of_ne
    {character : Char}
    (notReturn : character ≠ '\r')
    (notFeed : character ≠ '\n') :
    isLineBreak character = false := by
  simp [isLineBreak, notReturn, notFeed]

theorem flatten_onFirstLine
    (character : Char)
    (lines : List Text) :
    (onFirstLine character lines).flatten = character :: lines.flatten := by
  cases lines <;> rfl

/-- The lines make up the text. -/
theorem flatten_lines (text : Text) : text.lines.flatten = text := by
  fun_induction lines text with
  | case1 => rfl
  | case2 rest ih | case3 rest _ ih | case4 rest ih => simp [ih]
  | case5 character rest _ _ _ ih => rw [flatten_onFirstLine, ih]

/--
A carriage return without a line feed behind it is a line break of its own.
-/
theorem lines_return
    {rest : Text}
    (alone : rest.head? ≠ some '\n') :
    lines ('\r' :: rest) = ['\r'] :: lines rest := by
  rw [lines]
  rintro rest rfl
  exact alone rfl

theorem lines_cons_of_inline
    {character : Char}
    (inline : isLineBreak character = false)
    (rest : Text) :
    lines (character :: rest) = onFirstLine character (lines rest) := by
  have notBreak := Bool.or_eq_false_iff.1 inline
  rw [lines]
  · rintro rest rfl
    cases notBreak.2
  · rintro rfl
    cases notBreak.2
  · rintro rfl
    cases notBreak.1

/-- Text without a line break before a line is a part of the line. -/
theorem lines_inline_append
    {before rest line : Text}
    {others : List Text}
    (inline : ∀ character ∈ before, isLineBreak character = false)
    (isLines : rest.lines = line :: others) :
    (before ++ rest).lines = (before ++ line) :: others := by
  induction before with
  | nil => exact isLines
  | cons character before ih =>
    have further :=
      ih fun other member => inline other (List.mem_cons_of_mem _ member)
    rw [List.cons_append,
      lines_cons_of_inline (inline character List.mem_cons_self), further]
    rfl

/-! ## Counting -/

theorem endsInBreak_cons
    {character : Char}
    (inline : isLineBreak character = false)
    (line : Text) :
    endsInBreak (character :: line) = endsInBreak line := by
  cases line with
  | nil => simp [endsInBreak, inline]
  | cons next line => rw [endsInBreak, List.getLast?_cons_cons, endsInBreak]

theorem countP_onFirstLine
    {character : Char}
    (inline : isLineBreak character = false)
    (lines : List Text) :
    (onFirstLine character lines).countP endsInBreak =
      lines.countP endsInBreak := by
  cases lines with
  | nil => simp [onFirstLine, endsInBreak, inline]
  | cons line others =>
    simp only [onFirstLine, List.countP_cons, endsInBreak_cons inline]

/-- There are as many line breaks as lines that end with one. -/
theorem countLineBreaks_eq_countP (text : Text) :
    text.countLineBreaks = text.lines.countP endsInBreak := by
  have counts (counted : Nat) :
      countLineBreaksFrom counted text =
        counted + text.lines.countP endsInBreak := by
    fun_induction countLineBreaksFrom counted text with
    | case1 => rfl
    | case2 counted rest ih | case4 counted rest ih =>
      rw [ih, lines, List.countP_cons_of_pos rfl]
      omega
    | case3 counted rest alone ih =>
      rw [ih, lines, List.countP_cons_of_pos rfl]
      · omega
      · exact alone
    | case5 counted character rest _ notReturn notFeed ih =>
      have inline := isLineBreak_of_ne notReturn notFeed
      rw [ih, lines_cons_of_inline inline, countP_onFirstLine inline]
  rw [countLineBreaks, counts, Nat.zero_add]

/-! ## Indenting -/

section

variable {indentation : Text}

theorem indentLine_of_content
    {character : Char}
    (inline : isLineBreak character = false)
    (line : Text) :
    indentLine indentation (character :: line) =
      indentation ++ character :: line :=
  if_pos (by simp [hasContent, inline])

theorem indentLines_true (lines : List Text) :
    indentLines indentation true lines =
      lines.map (indentLine indentation) := by
  cases lines <;> rfl

/-- A line that is nothing but its break stays as it is. -/
theorem indentLines_of_break
    {lineBreak : Text}
    (breaks : hasContent lineBreak = false)
    (lineStart : Bool)
    (others : List Text) :
    indentLines indentation lineStart (lineBreak :: others) =
      lineBreak :: others.map (indentLine indentation) := by
  have same : indentLine indentation lineBreak = lineBreak :=
    if_neg (by simp [breaks])
  cases lineStart <;> simp [indentLines, same]

theorem endsInBreak_indentLine (line : Text) :
    endsInBreak (indentLine indentation line) = endsInBreak line := by
  unfold indentLine
  split
  · cases line with
    | nil => simp_all [hasContent]
    | cons character line =>
      simp [endsInBreak, List.getLast?_append, List.getLast?_cons]
  · rfl

/--
Indenting a line twice puts both indentations before it, the last one first.
-/
theorem indentLine_indentLine (outer line : Text) :
    indentLine outer (indentLine indentation line) =
      indentLine (outer ++ indentation) line := by
  by_cases content : hasContent line = true
  · have stays : hasContent (indentation ++ line) = true := by
      simp only [hasContent, List.any_append, Bool.or_eq_true]
      exact .inr content
    simp only [indentLine, if_pos content, if_pos stays, List.append_assoc]
  · simp only [indentLine, if_neg content]

variable (inline : ∀ character ∈ indentation, isLineBreak character = false)
include inline

/-- The lines of an indented text are the lines of the text, indented. -/
theorem lines_indentFrom
    (lineStart : Bool)
    (text : Text) :
    (indentFrom indentation lineStart text).lines =
      indentLines indentation lineStart text.lines := by
  fun_induction lines text generalizing lineStart with
  | case1 => rfl
  | case2 rest ih =>
    have isIndented : indentFrom indentation lineStart ('\r' :: '\n' :: rest) =
        '\r' :: '\n' :: indentFrom indentation true rest := by
      cases lineStart <;> rfl
    rw [isIndented, lines, ih, indentLines_of_break rfl, indentLines_true]
  | case3 rest alone ih =>
    have notFeed : rest.head? ≠ some '\n' := by
      intro isFeed
      rcases List.head?_eq_some_iff.1 isFeed with ⟨left, isRest⟩
      exact alone left isRest
    have ends : endsLine '\r' rest = true := by simp [endsLine, notFeed]
    have isIndented : indentFrom indentation lineStart ('\r' :: rest) =
        '\r' :: indentFrom indentation true rest := by
      rw [indentFrom, ends]
      cases lineStart <;> rfl
    have stays : (indentFrom indentation true rest).head? ≠ some '\n' := by
      rwa [ne_eq, head?_indentFrom_eq_break inline rfl]
    rw [isIndented, lines_return stays, ih, indentLines_of_break rfl,
      indentLines_true]
  | case4 rest ih =>
    have isIndented : indentFrom indentation lineStart ('\n' :: rest) =
        '\n' :: indentFrom indentation true rest := by
      cases lineStart <;> rfl
    rw [isIndented, lines, ih, indentLines_of_break rfl, indentLines_true]
  | case5 character rest _ notReturn notFeed ih =>
    have content : isLineBreak character = false :=
      isLineBreak_of_ne notReturn notFeed
    have isIndented : indentFrom indentation lineStart (character :: rest) =
        (if lineStart then indentation else []) ++
          character :: indentFrom indentation false rest := by
      simp [indentFrom, content, endsLine_of_inline content]
    have added :
        ∀ other ∈ if lineStart then indentation else [],
          isLineBreak other = false := by
      cases lineStart with
      | true => exact inline
      | false => simp
    obtain ⟨line, others, isLines, isRest⟩ : ∃ line others,
        onFirstLine character (lines rest) = (character :: line) :: others ∧
        onFirstLine character (indentLines indentation false (lines rest)) =
          (character :: line) :: others.map (indentLine indentation) := by
      cases lines rest with
      | nil => exact ⟨[], [], rfl, rfl⟩
      | cons line others => exact ⟨line, others, rfl, rfl⟩
    have behind : lines (character :: indentFrom indentation false rest) =
        (character :: line) :: others.map (indentLine indentation) := by
      rw [lines_cons_of_inline content, ih, isRest]
    rw [isIndented, lines_inline_append added behind, isLines, indentLines]
    cases lineStart with
    | true => rw [if_pos rfl, if_pos rfl, indentLine_of_content content]
    | false => rfl

theorem lines_indent (text : Text) :
    (indent text indentation).lines =
      text.lines.map (indentLine indentation) := by
  rw [indent_eq, lines_indentFrom inline, indentLines_true]

/--
An indentation is put before the lines that have content, and changes nothing
else.
-/
theorem indent_eq_flatten (text : Text) :
    indent text indentation =
      (text.lines.map (indentLine indentation)).flatten := by
  rw [← lines_indent inline, flatten_lines]

/-- An indentation breaks no lines and joins none. -/
theorem countLineBreaks_indent (text : Text) :
    (indent text indentation).countLineBreaks = text.countLineBreaks := by
  rw [countLineBreaks_eq_countP, countLineBreaks_eq_countP, lines_indent inline,
    List.countP_map]
  exact List.countP_congr fun line _ => by
    rw [Function.comp_apply, endsInBreak_indentLine]

/-- Indenting an indented text is indenting the text by both indentations. -/
theorem indent_indent
    {outer : Text}
    (inlineOuter : ∀ character ∈ outer, isLineBreak character = false)
    (text : Text) :
    indent (indent text indentation) outer =
      indent text (outer ++ indentation) := by
  have inlineBoth :
      ∀ character ∈ outer ++ indentation, isLineBreak character = false :=
    List.forall_mem_append.2 ⟨inlineOuter, inline⟩
  rw [indent_eq_flatten inlineOuter, lines_indent inline,
    indent_eq_flatten inlineBoth, List.map_map]
  congr 2
  exact funext fun line => indentLine_indentLine outer line

end

end Mustache.Text
