import Mustache.Reader.Basic

/-!
# Nodes

At the top level a template is a sequence of nodes: tokens that stand alone, and
sections, given by the tag that opens them and the tag that closes them.  The
tokens between the two are read and dropped; they matter only for the nesting of
sections and for the delimiters in effect at the close tag.

A tag that is alone on its line takes the line's indentation and line break with
it.  A line break that was not read yet still counts as passed.
-/

namespace Mustache

/-- A unit of a template at the top level. -/
inductive Node where
  /-- A token that opens no section. -/
  | leaf (token : Token)
  /-- A section with the tags that open and close it. -/
  | paired (opener closer : Token)
deriving DecidableEq, Repr

namespace Node

/-- The token that a node starts with. -/
def head : Node → Token
  | leaf token => token
  | paired opener _ => opener

/-- The close tag of a section. -/
def closer? : Node → Option Token
  | leaf _ => none
  | paired _ closer => some closer

/-- Let the marks of a node stay where they are from now on. -/
def release (node : Node) (reader : Reader) : Reader :=
  match node with
  | leaf token => reader.release token
  | paired opener closer => (reader.release opener).release closer

end Node

namespace Reader

/--
Read up to the close tag of a section.  `pending` holds the openers met on the
way that still wait for their own close tag, the innermost first.  With the
close tag comes the delimiter pair in effect there.
-/
def findCloser (opener : Token) :
    Nat → Reader → Delimiters → List Token →
    Except RenderError (Token × Delimiters) × Reader
  | 0, reader, _, _ =>
    (.error (.unclosedSection opener.source opener.line), reader)
  | budget + 1, reader, delimiters, pending =>
    match reader.next delimiters with
    | (.error error, reader) => (.error error, reader)
    | (.ok none, reader) =>
      (.error (.unclosedSection opener.source opener.line), reader)
    | (.ok (some token), reader) =>
      match token.kind with
      | .opener | .invertedOpener =>
        findCloser opener budget reader delimiters (token :: pending)
      | .closer =>
        match pending with
        | inner :: outer =>
          if inner.name = token.name then
            findCloser opener budget ((reader.release inner).release token)
              delimiters outer
          else
            (.error (.unbalancedSection token.source token.line), reader)
        | [] =>
          if token.name = opener.name then
            (.ok (token, delimiters), reader)
          else
            (.error (.unbalancedSection token.source token.line), reader)
      | _ =>
        findCloser opener budget (reader.release token)
          (delimitersAfter delimiters token) pending

/--
Read the next node, and the delimiter pair in effect after it.  A failure leaves
the pair as it was.
-/
def nextNode
    (reader : Reader)
    (delimiters : Delimiters) :
    Except RenderError (Option Node) × Delimiters × Reader :=
  match reader.next delimiters with
  | (.error error, reader) => (.error error, delimiters, reader)
  | (.ok none, reader) => (.ok none, delimiters, reader)
  | (.ok (some token), reader) =>
    match token.kind with
    | .opener | .invertedOpener =>
      match findCloser token (reader.buffer.size + 1) reader delimiters [] with
      | (.error error, reader) => (.error error, delimiters, reader)
      | (.ok (closer, delimiters), reader) =>
        (.ok (some (.paired token closer)), delimiters, reader)
    | .closer =>
      (.error (.unbalancedSection token.source token.line), delimiters, reader)
    | _ => (.ok (some (.leaf token)), delimitersAfter delimiters token, reader)

/-- Read and release nodes to the end. -/
def checkFrom : Nat → Reader → Delimiters → Except RenderError Unit
  | 0, _, _ => .ok ()
  | budget + 1, reader, delimiters =>
    match reader.nextNode delimiters with
    | (.error error, _) => .error error
    | (.ok none, _) => .ok ()
    | (.ok (some node), delimiters, reader) =>
      checkFrom budget (node.release reader) delimiters

end Reader

/--
Find the first error in a template without rendering it.  Section bodies are
read for their close tags; partials are not followed.
-/
def validate
    (template : Text)
    (delimiters : Delimiters) : Except RenderError Unit :=
  Reader.checkFrom (template.length + 1) (Reader.ofText template) delimiters

/-! ## Tags alone on their line -/

namespace Reader

/--
The indentation before a token and the rest of the line after it, if it is alone
there.
-/
def lineAround? (reader : Reader) (token : Token) : Option (Text × Text) := do
  let indentation ←
    match reader.buffer.walkTo? (.mark token.start) with
    | some (passed, _) => passed.indentationAtEnd?
    | none => some []
  let rest ←
    match reader.buffer.walkTo? (.mark token.stop) with
    | some (_, after) => after.lineAtStart?
    | none => some []
  pure (indentation, rest)

/--
Remove the line around a token that is alone there, and tell its indentation.  A
token with neighbours on its line changes nothing.  There is no answer when the
removal would cut through a character.
-/
def trimLine?
    (reader : Reader)
    (token : Token) : Option (Option Text × Reader) :=
  match reader.lineAround? token with
  | none => some (none, reader)
  | some (indentation, rest) => do
    let start := reader.buffer.offset (.mark token.start)
    let stop := reader.buffer.offset (.mark token.stop)
    let passed := if reader.position ≤ stop then rest.countLineBreaks else 0
    let ⟨buffer, cursor, line⟩ := reader
    let (lineEnd, buffer) := buffer.mark (.offset (stop + rest.byteSize))
    let buffer ←
      buffer.replaceRange? (.offset (start - indentation.byteSize))
        (.offset start) []
    let buffer ← buffer.replaceRange? (.mark token.stop) (.mark lineEnd) []
    pure (some indentation, ⟨buffer.release lineEnd, cursor, line + passed⟩)

/--
Put a text in the place of everything between two marks, unless that cuts
through a character.
-/
def replace?
    (reader : Reader)
    (start stop : Mark)
    (replacement : Text) : Option Reader := do
  let ⟨buffer, cursor, line⟩ := reader
  let buffer ← buffer.replaceRange? (.mark start) (.mark stop) replacement
  pure ⟨buffer, cursor, line⟩

end Reader

end Mustache
