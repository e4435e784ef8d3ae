import Mustache.Json.Numeral

/-!
# Reading structured data

A reader of the standard grammar.  A dialect says how deep arrays and objects
may be nested and which number a numeral stands for.
-/

namespace Mustache.Json

/-- A way to write structured data. -/
structure Dialect where
  name : String
  /-- How many arrays and objects may lie inside each other. -/
  nesting : Nat
  /-- The number that a numeral stands for, if it is finite. -/
  number? : Numeral → Option Number

/-- The dialect of files that hold nothing but structured data. -/
def Dialect.json : Dialect :=
  ⟨"JSON", 127, Numeral.scaled?⟩

/--
The dialect of files in a larger language, of which structured data is a part.
-/
def Dialect.yaml : Dialect :=
  ⟨"YAML", 128, Numeral.nearest?⟩

/-- Why a text holds no tree of data. -/
inductive ParseError where
  | malformed
  /-- The bracket at a line and a column opens one array or object too many. -/
  | tooDeep (line column : Nat)
deriving DecidableEq, Repr

/-- The message shown to the user. -/
def ParseError.message : ParseError → String
  | malformed => "malformed data"
  | tooDeep line column =>
    "recursion limit exceeded at line " ++ toString line ++ " column " ++
      toString column

/-- What keeps a reader from going on. -/
inductive Obstacle where
  | malformed
  /--
  A bracket opens one array or object too many; the text goes on after it.
  -/
  | tooDeep (rest : List Char)
deriving DecidableEq, Repr

/--
The error at an obstacle.  A column is the number of bytes since the last line
break.
-/
def Obstacle.error (source : List Char) : Obstacle → ParseError
  | malformed => .malformed
  | tooDeep rest =>
    let passed := source.take (source.length - rest.length)
    let line := passed.count '\n' + 1
    let column := passed.reverse.takeWhile (· != '\n')
    .tooDeep line
      (column.foldl (fun size character => size + character.utf8Size) 0)

/-- The value of a hexadecimal digit. -/
def hexValue? (character : Char) : Option Nat :=
  if '0' ≤ character ∧ character ≤ '9' then some (character.toNat - '0'.toNat)
  else if 'a' ≤ character ∧ character ≤ 'f' then
    some (character.toNat - 'a'.toNat + 10)
  else if 'A' ≤ character ∧ character ≤ 'F' then
    some (character.toNat - 'A'.toNat + 10)
  else none

/-- The code unit with the given hexadecimal digits. -/
def unit? (first second third fourth : Char) : Option Nat := do
  let first ← hexValue? first
  let second ← hexValue? second
  let third ← hexValue? third
  let fourth ← hexValue? fourth
  pure (((first * 16 + second) * 16 + third) * 16 + fourth)

/-- Does a code unit open a surrogate pair? -/
def isHighSurrogate (unit : Nat) : Bool :=
  0xD800 ≤ unit && unit < 0xDC00

/-- Does a code unit close a surrogate pair? -/
def isLowSurrogate (unit : Nat) : Bool :=
  0xDC00 ≤ unit && unit < 0xE000

/-- The character of a surrogate pair. -/
def pairCharacter (high low : Nat) : Char :=
  Char.ofNat (0x10000 + (high - 0xD800) * 0x400 + (low - 0xDC00))

/-- The character that a letter after a backslash stands for. -/
def simpleEscape? : Char → Option Char
  | '"' => some '"'
  | '\\' => some '\\'
  | '/' => some '/'
  | 'b' => some (Char.ofNat 8)
  | 'f' => some (Char.ofNat 12)
  | 'n' => some '\n'
  | 'r' => some '\r'
  | 't' => some '\t'
  | _ => none

/--
Read a string after its opening quote, given the characters read so far, last
one first, and the code unit that waits for the other half of its pair.
-/
def readString?
    (passed : List Char)
    (high : Option Nat) : List Char → Option (String × List Char)
  | '\\' :: 'u' :: first :: second :: third :: fourth :: rest =>
    match unit? first second third fourth, high with
    | none, _ => none
    | some unit, none =>
      if isHighSurrogate unit then readString? passed (some unit) rest
      else if isLowSurrogate unit then none
      else readString? (Char.ofNat unit :: passed) none rest
    | some unit, some high =>
      if isLowSurrogate unit then
        readString? (pairCharacter high unit :: passed) none rest
      else
        none
  | '\\' :: letter :: rest =>
    match simpleEscape? letter, high with
    | some character, none => readString? (character :: passed) none rest
    | _, _ => none
  | '"' :: rest =>
    match high with
    | none => some (String.ofList passed.reverse, rest)
    | some _ => none
  | character :: rest =>
    if high.isSome ∨ character.toNat < 32 then none
    else readString? (character :: passed) none rest
  | [] => none

/-- The text after the white space at its head. -/
def skipSpace (text : List Char) : List Char :=
  text.dropWhile fun character =>
    character == ' ' ||
    character == '\n' ||
    character == '\r' ||
    character == '\t'

/-- The rest of a text after an expected beginning. -/
def expect? (beginning text : List Char) : Option (List Char) :=
  if beginning.isPrefixOf text then some (text.drop beginning.length) else none

/--
Read a word, of which the first letter has been read, that stands for a tree.
-/
def readWord
    (json : Json)
    (letters text : List Char) : Except Obstacle (Json × List Char) :=
  match expect? letters text with
  | some rest => .ok (json, rest)
  | none => .error .malformed

mutual

/--
Read a tree after white space, with arrays and objects nested up to the given
depth.
-/
def readValue (dialect : Dialect) :
    Nat → Nat → List Char → Except Obstacle (Json × List Char)
  | 0, _, _ => .error .malformed
  | budget + 1, depth, text =>
    match skipSpace text with
    | 'n' :: rest => readWord null ['u', 'l', 'l'] rest
    | 't' :: rest => readWord (bool true) ['r', 'u', 'e'] rest
    | 'f' :: rest => readWord (bool false) ['a', 'l', 's', 'e'] rest
    | '"' :: rest =>
      match readString? [] none rest with
      | some (value, rest) => .ok (string value, rest)
      | none => .error .malformed
    | '[' :: rest =>
      match depth with
      | 0 => .error (.tooDeep rest)
      | depth + 1 =>
        match skipSpace rest with
        | ']' :: rest => .ok (array [], rest)
        | rest => readItems dialect budget depth #[] rest
    | '\x7b' :: rest =>
      match depth with
      | 0 => .error (.tooDeep rest)
      | depth + 1 =>
        match skipSpace rest with
        | '\x7d' :: rest => .ok (object [], rest)
        | rest => readEntries dialect budget depth [] rest
    | text =>
      match Numeral.read? text with
      | none => .error .malformed
      | some (numeral, rest) =>
        match dialect.number? numeral with
        | none => .error .malformed
        | some value => .ok (number value, rest)

/-- Read the items of an array from the next one on. -/
def readItems (dialect : Dialect) :
    Nat → Nat → Array Json → List Char → Except Obstacle (Json × List Char)
  | 0, _, _, _ => .error .malformed
  | budget + 1, depth, items, text =>
    match readValue dialect budget depth text with
    | .error obstacle => .error obstacle
    | .ok (item, rest) =>
      match skipSpace rest with
      | ',' :: rest => readItems dialect budget depth (items.push item) rest
      | ']' :: rest => .ok (array (items.push item).toList, rest)
      | _ => .error .malformed

/-- Read the entries of an object from the next one on. -/
def readEntries (dialect : Dialect) :
    Nat → Nat → Entries Json → List Char → Except Obstacle (Json × List Char)
  | 0, _, _, _ => .error .malformed
  | budget + 1, depth, entries, text =>
    match skipSpace text with
    | '"' :: rest =>
      match readString? [] none rest with
      | none => .error .malformed
      | some (key, rest) =>
        match skipSpace rest with
        | ':' :: rest =>
          match readValue dialect budget depth rest with
          | .error obstacle => .error obstacle
          | .ok (value, rest) =>
            match skipSpace rest with
            | ',' :: rest =>
              readEntries dialect budget depth (entries.insert key value) rest
            | '\x7d' :: rest => .ok (object (entries.insert key value), rest)
            | _ => .error .malformed
        | _ => .error .malformed
    | _ => .error .malformed

end

/--
Read a text that holds one tree and nothing else.  Every step of the reader that
takes no character is followed by one that takes some, so the budget suffices.
-/
def parse (dialect : Dialect) (source : String) : Except ParseError Json :=
  let text := source.toList
  match readValue dialect (2 * text.length + 2) dialect.nesting text with
  | .error obstacle => .error (obstacle.error text)
  | .ok (json, rest) =>
    if skipSpace rest = [] then .ok json else .error .malformed

end Mustache.Json
