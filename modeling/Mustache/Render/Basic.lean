import Mustache.Context
import Mustache.Error
import Mustache.Reader.Node
import Mustache.Value.Json

/-!
# Rendering as a computation

Rendering reads and writes a world: the store, which lambdas may change, and the
context stack.  It ends with a result or stops early, and the world as it was at
that moment remains.
-/

namespace Mustache

/-- Named templates that other templates include. -/
abbrev Partials := Entries String

/-- Why a rendering stops without a result. -/
inductive Stop where
  /-- The template or its data is at fault. -/
  | failed (error : RenderError)
  /-- A replacement would cut through a character. -/
  | cutsCharacter
  /--
  The template includes itself without end, or shows a value that contains
  itself.
  -/
  | endless
deriving DecidableEq, Repr

/-- What rendering reads and writes. -/
structure World where
  store : Store
  stack : ContextStack
deriving Repr, Inhabited

/-- A computation in a world. -/
abbrev RenderM := ExceptT Stop (StateM World)

/-- A way to render a template with some partials, from a delimiter pair. -/
abbrev TemplateRenderer := Text → Partials → Delimiters → RenderM Text

namespace RenderM

/-- Run an operation on the store. -/
def ofEffect {α : Type} (effect : Effect α) : RenderM α := do
  let world ← get
  let (result, store) := effect world.store
  set { world with store }
  pure result

/-- The result of an edit, unless it cuts through a character. -/
def ofEdit {α : Type} : Option α → RenderM α
  | some result => pure result
  | none => throw .cutsCharacter

/-- The result of reading a template. -/
def ofReading {α : Type} : Except RenderError α → RenderM α
  | .ok result => pure result
  | .error error => throw (.failed error)

/-- The text of a value. -/
def textOf (value : Value) : RenderM Text := do
  match value.text? (← get).store with
  | some text => pure text.toList
  | none => throw .endless

/--
Run a computation with more frames, the last of them innermost, and remove them
afterwards.
-/
def withFrames
    {α : Type}
    (frames : List Value)
    (action : RenderM α) : RenderM α :=
  fun world =>
    let (result, after) :=
      action { world with stack := frames.foldl ContextStack.push world.stack }
    (result,
      { after with
        stack := frames.foldl (fun stack _ => stack.pop) after.stack })

/-- What a name stands for in the current context. -/
def resolve
    (lambdas : Lambdas)
    (name : Text)
    (body : Option Text) : RenderM (Option Value) := do
  let world ← get
  ofEffect
    (world.stack.resolve lambdas (Name.ofText name) (body.map String.ofList))

end RenderM

end Mustache
