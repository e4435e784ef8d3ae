import Mustache.Error
import Mustache.Token.Lexer

/-!
# Reading tokens from a buffer

A reader goes through a buffer that may be edited between two reads.  It keeps
its place as a mark, so text that replaces a token it has read is not read
again, and it counts the line breaks it has passed.

The delimiters are an argument of every read, because a set-delimiter tag
changes how the tokens after it are read.
-/

namespace Mustache

/-- A buffer, how far it has been read, and the line that place is on. -/
structure Reader where
  buffer : Buffer
  cursor : Mark
  line : Nat
deriving Inhabited

namespace Reader

/-- A reader at the start of a buffer. -/
def ofBuffer (buffer : Buffer) : Reader :=
  let (cursor, buffer) := buffer.mark (.offset 0)
  ⟨buffer, cursor, 1⟩

/-- A reader at the start of a text. -/
def ofText (text : Text) : Reader :=
  ofBuffer (Buffer.ofText text)

/-- How many bytes have been read. -/
def position (reader : Reader) : Nat :=
  reader.buffer.offset (.mark reader.cursor)

/-- Count line breaks that were removed from the unread text. -/
def addLines (reader : Reader) (count : Nat) : Reader :=
  { reader with line := reader.line + count }

/-- Apply a function to the buffer. -/
def mapBuffer : Reader → (Buffer → Buffer) → Reader
  | ⟨buffer, cursor, line⟩, change => ⟨change buffer, cursor, line⟩

/-- Let the marks of a token stay where they are from now on. -/
def release (reader : Reader) (token : Token) : Reader :=
  reader.mapBuffer token.release

/-- Move past a text that stands at the cursor, after the given character. -/
def consume (reader : Reader) (previous : Option Char) (text : Text) : Reader :=
  let position := reader.position + text.byteSize
  let ⟨buffer, cursor, line⟩ := reader
  ⟨buffer.setPosition cursor (.offset position), cursor,
    line + text.lineBreaksAfter previous⟩

/-- Make a token of a text that starts at the given offset and line. -/
def makeToken
    (reader : Reader)
    (kind : TokenKind)
    (name source : Text)
    (start line : Nat)
    (delimiters : Option Delimiters) : Token × Reader :=
  let ⟨buffer, cursor, cursorLine⟩ := reader
  let (startMark, buffer) := buffer.mark (.offset start)
  let (stopMark, buffer) := buffer.mark (.offset (start + source.byteSize))
  (⟨kind, name, source, startMark, stopMark, line, delimiters⟩,
    ⟨buffer, cursor, cursorLine⟩)

/-- Read past a text that stands at the cursor, and make a token of it. -/
def consumeToken
    (reader : Reader)
    (previous : Option Char)
    (kind : TokenKind)
    (name source : Text)
    (delimiters : Option Delimiters) : Token × Reader :=
  let start := reader.position
  let line := reader.line
  (reader.consume previous source).makeToken kind name source start line
    delimiters

/--
The pair that the body of a set-delimiter tag names, before the equals sign at
its end.
-/
def installed? (body : Text) : Option Delimiters :=
  if body.getLast? = some '=' then Delimiters.parse? body.dropLast else none

/--
Read the token of a lexeme that stands at the cursor, at the head of the unread
text.
-/
def take
    (reader : Reader)
    (previous : Option Char)
    (unread : Text) : Lexeme → Except RenderError Token × Reader
  | .plain source =>
    let (token, after) := reader.consumeToken previous .text source source none
    (.ok token, after)
  | .tag .setDelimiters source body =>
    match installed? body with
    | none =>
      (.error (.invalidDelimiters source reader.line),
        reader.consume previous source)
    | some delimiters =>
      let (token, after) :=
        reader.consumeToken previous .setDelimiters delimiters.written source
          (some delimiters)
      (.ok token, after)
  | .tag kind source body =>
    let (token, after) :=
      reader.consumeToken previous kind body.trim source none
    (.ok token, after)
  | .unclosed => (.error (.unclosedTag unread reader.line), reader)

/--
Read the next token.  There is none at the end of the text, and a tag that is
malformed without being an error is passed over.  A reader that stands inside a
character finds an empty text there.
-/
def next
    (reader : Reader)
    (delimiters : Delimiters) : Except RenderError (Option Token) × Reader :=
  let cursor := reader.cursor
  let reader := reader.mapBuffer fun buffer => buffer.settle (.mark cursor)
  match reader.buffer.walkTo? (.mark reader.cursor) with
  | none =>
    if reader.buffer.size ≤ reader.position then
      (.ok none, reader)
    else
      let (token, reader) :=
        reader.makeToken .text [] [] reader.position reader.line none
      (.ok (some token), reader)
  | some (passed, unread) =>
    let previous := passed.head?
    match Lexeme.next delimiters [] unread with
    | (skipped, none) => (.ok none, reader.consume previous skipped)
    | (skipped, some lexeme) =>
      let (result, after) := (reader.consume previous skipped).take
        (skipped.getLast?.or previous) (unread.drop skipped.length) lexeme
      (result.map some, after)

/-- The pair in effect after a token. -/
def delimitersAfter (delimiters : Delimiters) (token : Token) : Delimiters :=
  token.delimiters.getD delimiters

/--
Read tokens to the end, with set-delimiter tags in effect from where they stand.
-/
def readAll :
    Nat → Reader → Delimiters → Array Token →
    Except RenderError (List Token) × Reader
  | 0, reader, _, tokens => (.ok tokens.toList, reader)
  | budget + 1, reader, delimiters, tokens =>
    match reader.next delimiters with
    | (.error error, reader) => (.error error, reader)
    | (.ok none, reader) => (.ok tokens.toList, reader)
    | (.ok (some token), reader) =>
      readAll budget reader (delimitersAfter delimiters token)
        (tokens.push token)

/--
All tokens of the buffer, from its start.  The reader stays where it was.
Every token takes at least one byte, which bounds their number.
-/
def tokens
    (reader : Reader)
    (delimiters : Delimiters) : Except RenderError (List Token) × Reader :=
  let start : Reader :=
    { reader with
      line := 1
      buffer := reader.buffer.setPosition reader.cursor (.offset 0) }
  let (result, after) := readAll (reader.buffer.size + 1) start delimiters #[]
  (result,
    { after with
      line := reader.line
      buffer :=
        after.buffer.setPosition reader.cursor (.offset reader.position) })

end Reader

end Mustache
