import Mustache.Entries
import Mustache.Number.Basic

/-!
# Dynamic values

Templates read from values.  Besides the kinds of structured data there are two
more.  A lambda is a named function that may be bound to a receiver and may have
a setter; a map is a reference to a table in a store, so that copies of a map
share their entries, and it may carry a lambda that produces the primitive value
the map stands for.

What the functions do is left open: `Lambdas` interprets their names as
operations on the store.
-/

namespace Mustache

/-- The name of a table in a store. -/
structure TableId where
  index : Nat
deriving DecidableEq, Repr, Inhabited

/-- The name of a function. -/
structure FunctionId where
  index : Nat
deriving DecidableEq, Repr, Inhabited

/-- The name of a setter. -/
structure SetterId where
  index : Nat
deriving DecidableEq, Repr, Inhabited

/-- A function with the receiver it is bound to, over values of type `V`. -/
structure LambdaOf (V : Type) where
  function : FunctionId
  setter : Option SetterId
  receiver : Option V
deriving Repr, Inhabited

/--
A reference to a table, with the lambda that makes a primitive value of it.
-/
structure MapOf (V : Type) where
  table : TableId
  primitive : Option (LambdaOf V)
deriving Repr, Inhabited

/-- A value that templates read. -/
inductive Value where
  | null
  | bool (value : Bool)
  | number (value : Number)
  | string (value : String)
  | list (items : List Value)
  | map (map : MapOf Value)
  | lambda (lambda : LambdaOf Value)
deriving Repr, Inhabited

/-- A lambda of values. -/
abbrev Lambda := LambdaOf Value

/-- A map of values. -/
abbrev MapRef := MapOf Value

/-- The tables that maps refer to. -/
structure Store where
  tables : Array (Entries Value)
deriving Repr, Inhabited

/-- What can read and write the store. -/
abbrev Effect := StateM Store

/-- What a function is called with. -/
structure Call where
  /-- The value that the lambda is bound to. -/
  receiver : Option Value
  /-- The source of the section body that the lambda is called for. -/
  text : Option String
deriving Repr, Inhabited

/-- What functions and setters do. -/
structure Lambdas where
  call : FunctionId → Call → Effect Value
  assign : SetterId → Value → Effect Unit

/-- What functions and setters do in data that has no lambdas. -/
def Lambdas.none : Lambdas where
  call _ _ := pure .null
  assign _ _ := pure ()

namespace Store

/-- A store without tables. -/
def empty : Store :=
  ⟨#[]⟩

/-- The entries of a table. -/
def entries (store : Store) (table : TableId) : Entries Value :=
  store.tables[table.index]?.getD []

/-- Write the entries of a table. -/
def write (store : Store) (table : TableId) (entries : Entries Value) : Store :=
  ⟨store.tables.setIfInBounds table.index entries⟩

/-- Make a table. -/
def allocate (store : Store) (entries : Entries Value) : TableId × Store :=
  (⟨store.tables.size⟩, ⟨store.tables.push entries⟩)

end Store

namespace LambdaOf

/-- The lambda bound to a receiver. -/
def bind (lambda : Lambda) (receiver : Value) : Lambda :=
  { lambda with receiver := some receiver }

/-- Call a lambda, for a section body if there is one. -/
def call
    (lambda : Lambda)
    (lambdas : Lambdas)
    (text : Option String) : Effect Value :=
  lambdas.call lambda.function ⟨lambda.receiver, text⟩

/-- Hand a value to the setter.  The answer tells whether there is one. -/
def assign
    (lambda : Lambda)
    (lambdas : Lambdas)
    (value : Value) : Effect Bool := do
  match lambda.setter with
  | some setter =>
    lambdas.assign setter value
    pure true
  | none => pure false

end LambdaOf

namespace MapOf

/-- Make a map with the given entries. -/
def make
    (entries : Entries Value)
    (primitive : Option Lambda) : Effect MapRef := do
  let (table, store) := (← get).allocate entries
  set store
  pure ⟨table, primitive⟩

/-- The entries of a map. -/
def entries (map : MapRef) (store : Store) : Entries Value :=
  store.entries map.table

/-- The value under a key. -/
def get? (map : MapRef) (store : Store) (key : String) : Option Value :=
  (map.entries store).get? key

/-- Write a value under a key, and give back the one that was there. -/
def insert
    (map : MapRef)
    (key : String)
    (value : Value) : Effect (Option Value) := do
  let store ← get
  set (store.write map.table ((map.entries store).insert key value))
  pure (map.get? store key)

/-- Remove a key, and give back its value. -/
def erase (map : MapRef) (key : String) : Effect (Option Value) := do
  let store ← get
  set (store.write map.table ((map.entries store).erase key))
  pure (map.get? store key)

end MapOf

namespace Value

/-- The four ways in which a template deals with a value. -/
inductive Shape where
  | scalar
  | sequence
  | mapping
  | callable
deriving DecidableEq, Repr

/-- How a template deals with a value. -/
def shape : Value → Shape
  | null | bool _ | number _ | string _ => .scalar
  | list _ => .sequence
  | map _ => .mapping
  | lambda _ => .callable

/--
Is a value truthy?  Null, false, zero, the empty string and the empty list are
not; maps and lambdas always are.
-/
def isTruthy : Value → Bool
  | null => false
  | bool value => value
  | number value => value.isTruthy
  | string value => value != ""
  | list items => !items.isEmpty
  | map _ | lambda _ => true

/-- The value under a key, when the value is a map. -/
def get? (value : Value) (store : Store) (key : String) : Option Value :=
  match value with
  | map reference => reference.get? store key
  | _ => none

/-- What a map with a primitive conversion stands for. -/
def toPrimitive?
    (value : Value)
    (lambdas : Lambdas) : Effect (Option Value) := do
  match value with
  | map ⟨table, some primitive⟩ =>
    let converted ←
      (primitive.bind (map ⟨table, some primitive⟩)).call lambdas none
    pure (some converted)
  | _ => pure none

/-- What a value stands for: itself, unless it has a primitive conversion. -/
def convert (value : Value) (lambdas : Lambdas) : Effect Value := do
  pure ((← value.toPrimitive? lambdas).getD value)

end Value

end Mustache
