import Mustache.Buffer.Basic
import Mustache.Delimiters

/-!
# Tokens

A template is a sequence of tokens: stretches of text, and tags.  The character
after the opening delimiter, the modifier, tells what a tag is for.  A token
carries the marks that delimit it in the buffer it was read from, so it can be
replaced there after the text around it has changed.
-/

namespace Mustache

/-- What a token is for. -/
inductive TokenKind where
  /-- Text between tags. -/
  | text
  /-- The text of a value, escaped. -/
  | interpolation
  /-- The text of a value as it is. -/
  | unescaped
  /-- The start of a section. -/
  | opener
  /-- The start of an inverted section. -/
  | invertedOpener
  /-- The end of a section. -/
  | closer
  /-- A tag that stands for nothing. -/
  | comment
  /-- A tag that sets the delimiters of the tags after it. -/
  | setDelimiters
  /-- Another template, by name. -/
  | inclusion
  /-- The innermost frame itself. -/
  | implicit
deriving DecidableEq, Repr

namespace TokenKind

/--
The kind of a tag with the given character after its opening delimiter, and
whether that character is a modifier.  A dot is part of the name, and a plain
name has no modifier.
-/
def ofModifier : Option Char → TokenKind × Bool
  | some '!' => (comment, true)
  | some '=' => (setDelimiters, true)
  | some '&' | some '~' | some '{' => (unescaped, true)
  | some '#' => (opener, true)
  | some '^' => (invertedOpener, true)
  | some '/' => (closer, true)
  | some '>' | some '@' => (inclusion, true)
  | some '.' => (implicit, false)
  | _ => (interpolation, false)

/-- Does a section start here? -/
def opensSection : TokenKind → Bool
  | opener | invertedOpener => true
  | _ => false

/-- Does a tag of this kind name something in the context? -/
def readsContext : TokenKind → Bool
  | interpolation | unescaped | implicit | inclusion | opener
  | invertedOpener =>
    true
  | text | closer | comment | setDelimiters => false

/-- The six kinds of tags that name something in the context. -/
theorem readsContext_iff {kind : TokenKind} :
    kind.readsContext = true ↔
      kind = implicit ∨
        kind = interpolation ∨
        kind = unescaped ∨
        kind = inclusion ∨
        kind = opener ∨
        kind = invertedOpener := by
  cases kind <;> decide

/-- The name of a kind in listings. -/
def label : TokenKind → String
  | text => "Text"
  | interpolation => "Interpolation"
  | unescaped => "UnescapedInterpolation"
  | opener => "SectionBegin"
  | invertedOpener => "InvertedSectionBegin"
  | closer => "SectionEnd"
  | comment => "Comment"
  | setDelimiters => "DelimiterSwitch"
  | inclusion => "Partial"
  | implicit => "Implicit"

end TokenKind

/-- A stretch of text or a tag, with the place it was read from. -/
structure Token where
  kind : TokenKind
  /-- The trimmed body of a tag, or the text. -/
  name : Text
  /-- Everything from the start of the token to its end. -/
  source : Text
  start : Mark
  stop : Mark
  /-- The line on which the token starts, counted from one. -/
  line : Nat
  /-- The pair that a set-delimiter tag installs. -/
  delimiters : Option Delimiters
deriving DecidableEq, Repr

/-- Let the marks of a token stay where they are from now on. -/
def Token.release (token : Token) (buffer : Buffer) : Buffer :=
  (buffer.release token.start).release token.stop

end Mustache
