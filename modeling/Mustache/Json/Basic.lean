import Mustache.Entries
import Mustache.Number.Basic

/-!
# Structured data and its compact text

Objects keep their keys in ascending order.  The compact text has no white
space.  In a string the quote, the backslash and the control characters are
escaped, with a letter where there is one and four hexadecimal digits elsewhere;
every other character stands for itself.
-/

namespace Mustache

/-- A tree of data. -/
inductive Json where
  | null
  | bool (value : Bool)
  | number (value : Number)
  | string (value : String)
  | array (items : List Json)
  | object (entries : List (String × Json))
deriving Repr, Inhabited

namespace Json

/-- A hexadecimal digit, in lower case. -/
def hexDigit (digit : Nat) : Char :=
  if digit < 10 then
    Char.ofNat ('0'.toNat + digit)
  else
    Char.ofNat ('a'.toNat + digit - 10)

/-- The written form of one character in a string. -/
def escapeCharacter (character : Char) : List Char :=
  match character with
  | '"' => ['\\', '"']
  | '\\' => ['\\', '\\']
  | '\n' => ['\\', 'n']
  | '\r' => ['\\', 'r']
  | '\t' => ['\\', 't']
  | _ =>
    if character.toNat = 8 then ['\\', 'b']
    else if character.toNat = 12 then ['\\', 'f']
    else if character.toNat < 32 then
      ['\\', 'u', '0', '0', hexDigit (character.toNat / 16),
        hexDigit (character.toNat % 16)]
    else [character]

/-- A string between quotes. -/
def quote (value : String) : String :=
  "\"" ++ String.ofList (value.toList.flatMap escapeCharacter) ++ "\""

mutual

/-- The compact text of a tree. -/
def text : Json → String
  | null => "null"
  | bool true => "true"
  | bool false => "false"
  | number value => value.text
  | string value => quote value
  | array items => "[" ++ String.intercalate "," (itemTexts items) ++ "]"
  | object entries =>
    "\x7b" ++ String.intercalate "," (entryTexts entries) ++ "\x7d"

/-- The texts of the items of an array. -/
def itemTexts : List Json → List String
  | [] => []
  | item :: rest => text item :: itemTexts rest

/-- The texts of the entries of an object. -/
def entryTexts : List (String × Json) → List String
  | [] => []
  | (key, value) :: rest => (quote key ++ ":" ++ text value) :: entryTexts rest

end

/-- The value under a key of an object. -/
def get? (json : Json) (key : String) : Option Json :=
  match json with
  | object entries => Entries.get? entries key
  | _ => none

end Json

end Mustache
