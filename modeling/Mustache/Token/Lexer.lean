import Mustache.Token.Basic

/-!
# Lexemes

A lexeme is what stands at the head of the unread text: a stretch of text up to
the next opening delimiter, a tag up to its nearest closing delimiter, or a tag
that is never closed.  A tag whose modifier is a brace and which closes with two
braces ends on the last two of three.

A tag that starts with a dot but whose body is more than the dot is malformed.
It makes no token and stays in the template as text that was passed over.
-/

namespace Mustache

/-- What stands at the head of the unread text. -/
inductive Lexeme where
  /-- Text between tags. -/
  | plain (source : Text)
  /--
  A tag with its full source and the body between modifier and closing
  delimiter.
  -/
  | tag (kind : TokenKind) (source body : Text)
  /-- A tag without a closing delimiter. -/
  | unclosed
deriving DecidableEq, Repr

/--
The text before the next place where a pattern starts, after the characters
already passed.
-/
def Text.upTo (pattern passed : Text) : Text → Text
  | [] => passed.reverse
  | character :: rest =>
    if pattern.isPrefixOf (character :: rest) then
      passed.reverse
    else
      upTo pattern (character :: passed) rest

namespace Lexeme

/--
A stretch of text: its first character, and on to the next opening delimiter.
-/
def readPlain (opening : Text) : Text → Text
  | [] => []
  | character :: rest =>
    if opening.isEmpty then
      character :: rest
    else
      Text.upTo opening [character] rest

/--
Read the body of a tag up to its closing delimiter.  The answer holds all
characters read, the delimiter included, and the body.  In a triple tag a brace
before three braces at hand is passed over and is no part of the body.
-/
def readBody
    (closing : Text)
    (triple : Bool)
    (passed body : Text) : Text → Option (Text × Text)
  | [] => none
  | character :: rest =>
    if triple && ['}', '}', '}'].isPrefixOf (character :: rest) then
      readBody closing triple (character :: passed) body rest
    else if closing.isPrefixOf (character :: rest) then
      some (passed.reverse ++ closing, body.reverse)
    else
      readBody closing triple (character :: passed) (character :: body) rest

/-- Read the tag whose opening delimiter was just passed. -/
def readTag (delimiters : Delimiters) (rest : Text) : Lexeme :=
  let modifier := rest.head?
  let (kind, isModifier) := TokenKind.ofModifier modifier
  let consumed := if isModifier then rest.take 1 else []
  let triple := modifier == some '{' && delimiters.closing == ['}', '}']
  match readBody delimiters.closing triple [] []
      (rest.drop consumed.length) with
  | none => unclosed
  | some (passed, body) =>
    tag kind (delimiters.opening ++ consumed ++ passed) body

/-- Read the lexeme at the head of a text. -/
def read (delimiters : Delimiters) (unread : Text) : Lexeme :=
  if delimiters.canMarkTags && delimiters.opening.isPrefixOf unread then
    readTag delimiters (unread.drop delimiters.opening.length)
  else
    plain (readPlain delimiters.opening unread)

/-- The characters of a lexeme that is malformed and makes no token. -/
def malformed? : Lexeme → Option Text
  | tag .implicit source body => if body = ['.'] then none else some source
  | _ => none

theorem read_tag_ne_nil
    {delimiters : Delimiters}
    {unread source body : Text}
    {kind : TokenKind}
    (equality : read delimiters unread = tag kind source body) :
    source ≠ [] := by
  unfold read at equality
  split at equality
  · rename_i opens
    simp only [Delimiters.canMarkTags, Bool.and_eq_true, Bool.not_eq_true']
      at opens
    unfold readTag at equality
    simp only at equality
    split at equality
    · simp at equality
    · simp only [tag.injEq] at equality
      obtain ⟨-, rfl, -⟩ := equality
      have := opens.1.1
      cases nonempty : delimiters.opening with
      | nil => simp [nonempty] at this
      | cons head tail => simp
  · simp at equality

theorem malformed?_ne_nil
    {delimiters : Delimiters}
    {unread source : Text}
    (equality : (read delimiters unread).malformed? = some source) :
    source ≠ [] := by
  unfold malformed? at equality
  split at equality
  · rename_i tagSource body isTag
    split at equality
    · simp at equality
    · simp only [Option.some.injEq] at equality
      subst equality
      exact read_tag_ne_nil isTag
  · simp at equality

/--
The next lexeme that makes a token or an error, with the malformed tags passed
over before it.  There is none at the end of the text.
-/
def next
    (delimiters : Delimiters)
    (skipped unread : Text) : Text × Option Lexeme :=
  if unread = [] then
    (skipped, none)
  else
    match _isMalformed : (read delimiters unread).malformed? with
    | some source =>
      next delimiters (skipped ++ source) (unread.drop source.length)
    | none => (skipped, some (read delimiters unread))
termination_by unread.length
decreasing_by
  have nonempty := List.length_pos_iff.2 (malformed?_ne_nil _isMalformed)
  have unreadNonempty : 0 < unread.length :=
    List.length_pos_iff.2 (by assumption)
  simp only [List.length_drop]
  omega

end Lexeme

end Mustache
