import Mustache.Error
import Mustache.Json.Basic

/-!
# Documents with arbitrary keys

A document is structured data whose objects may have any document as a key.  As
structured data a number and a truth value become their text when they are keys;
a key that is null, an array or an object is an error.
-/

namespace Mustache

/-- Structured data with arbitrary keys. -/
inductive Document where
  | null
  | bool (value : Bool)
  | number (value : Number)
  | string (value : String)
  | array (items : List Document)
  | object (entries : List (Document × Document))
deriving Repr, Inhabited

namespace Document

/-- The text of a key. -/
def keyText : Document → Except RenderError String
  | string value => .ok value
  | number value => .ok value.text
  | bool true => .ok "true"
  | bool false => .ok "false"
  | null | array _ | object _ => .error (.serialization "key must be a string")

mutual

/--
The structured data of a document.  Of entries with the same key the last one
counts.
-/
def toJson : Document → Except RenderError Json
  | null => .ok .null
  | bool value => .ok (.bool value)
  | number value => .ok (.number value)
  | string value => .ok (.string value)
  | array items => do
    let items ← itemsToJson items
    pure (.array items)
  | object entries => do
    let entries ← entriesToJson entries
    pure (.object (Entries.ofList entries))

/-- The structured data of the items of an array. -/
def itemsToJson : List Document → Except RenderError (List Json)
  | [] => .ok []
  | item :: rest => do
    let json ← toJson item
    let jsons ← itemsToJson rest
    pure (json :: jsons)

/-- The structured data of entries, in the same order. -/
def entriesToJson :
    List (Document × Document) → Except RenderError (List (String × Json))
  | [] => .ok []
  | (key, value) :: rest => do
    let key ← keyText key
    let json ← toJson value
    let entries ← entriesToJson rest
    pure ((key, json) :: entries)

end

end Document

end Mustache
