import Mustache.Text.Basic

/-!
# What goes wrong in rendering

A template can be malformed in four ways, each of which carries the text of the
offending tag and the line on which it starts.  The other causes concern what a
template is rendered from: a name without a template, data that has no written
form, and a file that cannot be read.  Missing data is no error.
-/

namespace Mustache

/-- The cause of a failed rendering. -/
inductive RenderError where
  /-- A close tag that closes no section, or not the innermost open one. -/
  | unbalancedSection (tag : Text) (line : Nat)
  /-- A section that is never closed. -/
  | unclosedSection (tag : Text) (line : Nat)
  /-- A set-delimiter tag that does not name two delimiters. -/
  | invalidDelimiters (tag : Text) (line : Nat)
  /-- An opening delimiter without a closing one after it. -/
  | unclosedTag (tag : Text) (line : Nat)
  /-- A name under which no template is registered. -/
  | templateNotFound (name : String)
  /-- Data that cannot become a value. -/
  | serialization (reason : String)
  /-- A file that cannot be read. -/
  | io (reason : String)
deriving DecidableEq, Repr

/--
A line number as it is shown.  Lines are counted in full and shown in 64 bits.
-/
def shownLine (line : Nat) : Nat :=
  line % Nat.pow 2 64

namespace RenderError

/-- The line on which the offending tag starts. -/
def line? : RenderError → Option Nat
  | unbalancedSection _ line | unclosedSection _ line
  | invalidDelimiters _ line | unclosedTag _ line => some line
  | templateNotFound _ | serialization _ | io _ => none

/-- The text of the offending tag. -/
def tag? : RenderError → Option Text
  | unbalancedSection tag _ | unclosedSection tag _
  | invalidDelimiters tag _ | unclosedTag tag _ => some tag
  | templateNotFound _ | serialization _ | io _ => none

/-- Is the template itself malformed? -/
def isSyntax (error : RenderError) : Bool :=
  error.line?.isSome

/-- A tag and its line, as messages show them. -/
def place (tag : Text) (line : Nat) : String :=
  "\"" ++ String.ofList tag ++ "\" on line " ++ toString (shownLine line)

/-- The message shown to the user. -/
def message : RenderError → String
  | unbalancedSection tag line => "unbalanced section: " ++ place tag line
  | unclosedSection tag line => "missing section end for " ++ place tag line
  | invalidDelimiters tag line => "invalid set-delimiter tag " ++ place tag line
  | unclosedTag tag line => "unclosed tag " ++ place tag line
  | templateNotFound name => "template not found: " ++ name
  | serialization reason => "serialization error: " ++ reason
  | io reason => "I/O error: " ++ reason

end RenderError

end Mustache
