import Mustache.Text.Quoted
import Mustache.Value.Basic

/-!
# Values as diagnostics show them

Every kind of value names itself, strings are quoted, and a lambda tells only
whether it has a receiver and a setter.  As with the structured form, a value
that contains itself has no diagnostic form.
-/

namespace Mustache.Value

/-- The diagnostic form of a truth value. -/
def boolText (value : Bool) : String :=
  if value then "true" else "false"

/-- The diagnostic form of a lambda. -/
def lambdaDebug (lambda : Lambda) : String :=
  "Lambda \x7b bound: " ++ boolText lambda.receiver.isSome ++ ", setter: " ++
    boolText lambda.setter.isSome ++ " \x7d"

mutual

/-- The diagnostic form of a value, given the form of a table. -/
def debugWith (table : TableId → Option String) : Value → Option String
  | null => some "Null"
  | bool value => some ("Bool(" ++ boolText value ++ ")")
  | number value => some ("Number(" ++ value.text ++ ")")
  | string value => some ("String(" ++ Text.quoted value ++ ")")
  | list items => do
    let texts ← debugItemsWith table items
    pure ("[" ++ String.intercalate ", " texts ++ "]")
  | map ⟨id, _⟩ => table id
  | lambda ⟨function, setter, receiver⟩ =>
    some (lambdaDebug ⟨function, setter, receiver⟩)

/-- The diagnostic forms of the items of a list. -/
def debugItemsWith (table : TableId → Option String) :
    List Value → Option (List String)
  | [] => some []
  | item :: rest => do
    let text ← debugWith table item
    let texts ← debugItemsWith table rest
    pure (text :: texts)

end

/-- The diagnostic form of a table, following a bounded number of maps. -/
def tableDebug? (store : Store) : Nat → TableId → Option String
  | 0, _ => none
  | depth + 1, id => do
    let texts ← (store.entries id).mapM fun (key, value) => do
      let text ← debugWith (tableDebug? store depth) value
      pure (Text.quoted key ++ ": " ++ text)
    pure ("\x7b" ++ String.intercalate ", " texts ++ "\x7d")

/-- The diagnostic form of a value. -/
def debug? (value : Value) (store : Store) : Option String :=
  debugWith (tableDebug? store (store.tables.size + 1)) value

end Mustache.Value
