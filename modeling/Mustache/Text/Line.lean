import Mustache.Text.Basic

/-!
# Blanks, lines and markup

Blanks are the characters up to the space, line breaks are the carriage return
and the line feed, and a carriage return followed by a line feed is one break.
A place is alone on its line when only blanks stand between it and the line
break, or the edge of the text, on either side.

An indentation goes before every line that has content; empty lines and the
place after a final line break stay as they are.  The five characters that are
significant in markup are written as named references.
-/

namespace Mustache.Text

/-! ## Blanks and line breaks -/

/-- A blank is any character up to the space. -/
def isBlank (character : Char) : Bool :=
  character ≤ ' '

/-- The carriage return and the line feed. -/
def isLineBreak (character : Char) : Bool :=
  character == '\n' || character == '\r'

/-- A text without its leading and trailing blanks. -/
def trim (text : Text) : Text :=
  ((text.dropWhile isBlank).reverse.dropWhile isBlank).reverse

/-- Does a character complete a line break, given the one before it? -/
def opensLine (previous : Option Char) (character : Char) : Bool :=
  character == '\r' || (character == '\n' && previous != some '\r')

/-- The number of line breaks in a text, added to those counted before it. -/
def lineBreaksFrom (counted : Nat) (previous : Option Char) : Text → Nat
  | [] => counted
  | character :: rest =>
    lineBreaksFrom
      (if opensLine previous character then counted + 1 else counted)
      (some character) rest

/--
The number of line breaks in a text that follows the character `previous`.  A
line feed right after a carriage return belongs to the break before it.
-/
def lineBreaksAfter (previous : Option Char) (text : Text) : Nat :=
  lineBreaksFrom 0 previous text

theorem lineBreaksFrom_eq
    (counted : Nat)
    (previous : Option Char)
    (text : Text) :
    lineBreaksFrom counted previous text =
      counted + lineBreaksAfter previous text := by
  unfold lineBreaksAfter
  induction text generalizing counted previous with
  | nil => rfl
  | cons character rest ih =>
    simp only [lineBreaksFrom]
    rw [ih, ih (if opensLine previous character then 0 + 1 else 0)]
    split <;> omega

@[simp]
theorem lineBreaksAfter_nil (previous : Option Char) :
    lineBreaksAfter previous [] = 0 :=
  rfl

@[simp]
theorem lineBreaksAfter_cons
    (previous : Option Char)
    (character : Char)
    (text : Text) :
    lineBreaksAfter previous (character :: text) =
      (if opensLine previous character then 1 else 0) +
        lineBreaksAfter (some character) text := by
  show
    lineBreaksFrom (if opensLine previous character then 0 + 1 else 0)
        (some character) text = _
  rw [lineBreaksFrom_eq]

/--
Only a line feed at the start of a text depends on the character before it.
-/
theorem lineBreaksAfter_of_whole
    {previous : Option Char}
    {text : Text}
    (whole : ¬(previous = some '\r' ∧ text.head? = some '\n')) :
    lineBreaksAfter previous text = lineBreaksAfter none text := by
  cases text with
  | nil => rfl
  | cons character rest =>
    have same : opensLine previous character = opensLine none character := by
      by_cases isFeed : character = '\n'
      · subst isFeed
        have other : (previous != some '\r') = true :=
          bne_iff_ne.2 fun isReturn => whole ⟨isReturn, rfl⟩
        rw [opensLine, other]
        rfl
      · rw [opensLine, opensLine, beq_eq_false_iff_ne.2 isFeed, Bool.false_and,
          Bool.false_and]
    rw [lineBreaksAfter_cons, lineBreaksAfter_cons, same]

/--
The number of line breaks in a text, added to those counted before it.  A
carriage return takes the line feed right after it along.
-/
def countLineBreaksFrom (counted : Nat) : Text → Nat
  | [] => counted
  | '\r' :: '\n' :: rest => countLineBreaksFrom (counted + 1) rest
  | '\r' :: rest => countLineBreaksFrom (counted + 1) rest
  | '\n' :: rest => countLineBreaksFrom (counted + 1) rest
  | _ :: rest => countLineBreaksFrom counted rest

/-- The number of line breaks in a text. -/
def countLineBreaks (text : Text) : Nat :=
  countLineBreaksFrom 0 text

/--
Looking ahead from a carriage return counts what looking back from a line feed
does.
-/
theorem countLineBreaksFrom_eq
    (counted : Nat)
    (text : Text) :
    countLineBreaksFrom counted text = counted + lineBreaksAfter none text := by
  fun_induction countLineBreaksFrom counted text with
  | case1 => rfl
  | case2 counted rest ih =>
    have behind :
        lineBreaksAfter (some '\n') rest = lineBreaksAfter none rest :=
      lineBreaksAfter_of_whole (by simp)
    have isReturn : opensLine none '\r' = true := rfl
    have isFeed : opensLine (some '\r') '\n' = false := rfl
    rw [ih, lineBreaksAfter_cons, lineBreaksAfter_cons, isReturn, isFeed,
      behind]
    simp [Nat.add_assoc]
  | case3 counted rest alone ih =>
    have behind :
        lineBreaksAfter (some '\r') rest = lineBreaksAfter none rest := by
      refine lineBreaksAfter_of_whole ?_
      rintro ⟨-, isFeed⟩
      rcases List.head?_eq_some_iff.1 isFeed with ⟨left, isRest⟩
      exact alone left isRest
    rw [ih, lineBreaksAfter_cons, behind, ← Nat.add_assoc]
    rfl
  | case4 counted rest ih =>
    have behind :
        lineBreaksAfter (some '\n') rest = lineBreaksAfter none rest :=
      lineBreaksAfter_of_whole (by simp)
    rw [ih, lineBreaksAfter_cons, behind, ← Nat.add_assoc]
    rfl
  | case5 counted character rest _ notReturn notFeed ih =>
    have behind :
        lineBreaksAfter (some character) rest = lineBreaksAfter none rest :=
      lineBreaksAfter_of_whole fun both => notReturn (Option.some.inj both.1)
    have stays : opensLine none character = false := by
      simp only [opensLine, Bool.or_eq_false_iff, Bool.and_eq_false_iff,
        beq_eq_false_iff_ne]
      exact ⟨notReturn, .inl notFeed⟩
    rw [ih, lineBreaksAfter_cons, stays, behind]
    simp

theorem countLineBreaks_eq (text : Text) :
    text.countLineBreaks = text.lineBreaksAfter none := by
  rw [countLineBreaks, countLineBreaksFrom_eq, Nat.zero_add]

/-! ## The line around a place -/

/-- A blank that does not break the line. -/
def isInlineBlank (character : Char) : Bool :=
  isBlank character && !isLineBreak character

/--
The blanks at the end of a text, when nothing else stands before them on their
line.  The text is given with its last character first.
-/
def indentationAtEnd? (reversed : Text) : Option Text :=
  let indentation := (reversed.takeWhile isInlineBlank).reverse
  match reversed.dropWhile isInlineBlank with
  | [] => some indentation
  | character :: _ => if isLineBreak character then some indentation else none

/--
The blanks at the start of a text with the line break after them, when they fill
the line.
-/
def lineAtStart? (after : Text) : Option Text :=
  let blanks := after.takeWhile isInlineBlank
  match after.dropWhile isInlineBlank with
  | [] => some blanks
  | '\r' :: '\n' :: _ => some (blanks ++ ['\r', '\n'])
  | character :: _ =>
    if isLineBreak character then some (blanks ++ [character]) else none

/-! ## Indentation -/

/-- Does a line end with `character` when `rest` follows? -/
def endsLine (character : Char) (rest : Text) : Bool :=
  character == '\n' || (character == '\r' && rest.head? != some '\n')

/--
Indent a text whose first character starts a line exactly when `lineStart`
holds.
-/
def indentFrom (indentation : Text) (lineStart : Bool) : Text → Text
  | [] => []
  | character :: rest =>
    (if lineStart && !isLineBreak character then indentation else []) ++
      character :: indentFrom indentation (endsLine character rest) rest

/-- Put an indentation before every line that has content. -/
def indent (text indentation : Text) : Text :=
  if indentation.isEmpty then text else indentFrom indentation true text

/-- An empty indentation changes nothing. -/
theorem indentFrom_nothing
    (lineStart : Bool)
    (text : Text) :
    indentFrom [] lineStart text = text := by
  induction text generalizing lineStart with
  | nil => rfl
  | cons character rest ih => rw [indentFrom, ih, ite_self, List.nil_append]

theorem indent_eq (text indentation : Text) :
    indent text indentation = indentFrom indentation true text := by
  unfold indent
  split
  · rename_i nothing
    rw [List.isEmpty_iff.1 nothing, indentFrom_nothing]
  · rfl

/-! ## Markup -/

/-- The written form of one character. -/
def escapeCharacter : Char → Text
  | '&' => "&amp;".toList
  | '<' => "&lt;".toList
  | '>' => "&gt;".toList
  | '"' => "&quot;".toList
  | '\'' => "&apos;".toList
  | character => [character]

/-- Write a text so that it contains no markup. -/
def escapeMarkup (text : Text) : Text :=
  text.flatMap escapeCharacter

@[simp]
theorem escapeMarkup_append (first second : Text) :
    escapeMarkup (first ++ second) =
      escapeMarkup first ++ escapeMarkup second := by
  simp [escapeMarkup]

end Mustache.Text
