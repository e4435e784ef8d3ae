import Mustache.Text.Basic
import Mustache.Value.Basic

/-!
# Names, and the context that they are read from

A tag names either the innermost frame, with a single dot, or a key that is
reached through scopes, with dots between them.  Every dot separates, so a
segment may be empty.

A context is a stack of frames over a root.  A key is looked up from the
innermost frame outwards, and the first frame that has it wins.  A lambda comes
back bound to the frame it was found in.

A dotted name goes through scopes.  The first segment is looked up in the whole
stack; what it finds is entered, and becomes the only frame in which the next
segment is looked up.
-/

namespace Mustache

/-! ## Names -/

/-- What a tag refers to. -/
inductive Name where
  /-- The innermost frame. -/
  | current
  /-- A key, and the scopes to go through from the outermost on. -/
  | path (scopes : List String) (key : String)
deriving DecidableEq, Repr

namespace Name

/--
The segments before the last dot and the one after it, given the characters of
the segment being read, last one first.
-/
def segmentsFrom (segment : Text) : Text → List String × String
  | [] => ([], String.ofList segment.reverse)
  | character :: rest =>
    if character = '.' then
      let (scopes, key) := segmentsFrom [] rest
      (String.ofList segment.reverse :: scopes, key)
    else
      segmentsFrom (character :: segment) rest

/-- Read a name. -/
def ofText (text : Text) : Name :=
  if text = ['.'] then
    current
  else
    let (scopes, key) := segmentsFrom [] text
    path scopes key

end Name

/-! ## Contexts -/

/-- A stack of frames, the innermost first, over a root. -/
structure ContextStack where
  root : Value
  frames : List Value
deriving Repr, Inhabited

namespace ContextStack

/-- A stack with only a root. -/
def ofRoot (root : Value) : ContextStack :=
  ⟨root, []⟩

/-- Add an innermost frame. -/
def push (stack : ContextStack) (frame : Value) : ContextStack :=
  { stack with frames := frame :: stack.frames }

/-- Remove the innermost frame.  The root stays. -/
def pop (stack : ContextStack) : ContextStack :=
  { stack with frames := stack.frames.tail }

/-- The innermost frame. -/
def current (stack : ContextStack) : Value :=
  stack.frames.headD stack.root

/-- The number of frames, the root included. -/
def depth (stack : ContextStack) : Nat :=
  stack.frames.length + 1

/-- A value found in a frame: a lambda is bound to the frame. -/
def bindTo (frame : Value) : Value → Value
  | .lambda lambda => .lambda (lambda.bind frame)
  | value => value

/-- The first of some frames that has a key, and the value it has there. -/
def findOwner?
    (store : Store)
    (key : String) : List Value → Option (Value × Value)
  | [] => none
  | frame :: outer =>
    match frame.get? store key with
    | some value => some (frame, bindTo frame value)
    | none => findOwner? store key outer

/-- The innermost frame that has a key, and the value it has there. -/
def lookupOwner?
    (stack : ContextStack)
    (store : Store)
    (key : String) : Option (Value × Value) :=
  findOwner? store key (stack.frames ++ [stack.root])

/-- The value under a key in the innermost frame that has it. -/
def lookup?
    (stack : ContextStack)
    (store : Store)
    (key : String) : Option Value :=
  (stack.lookupOwner? store key).map Prod.snd

@[simp]
theorem pop_push
    (stack : ContextStack)
    (frame : Value) :
    (stack.push frame).pop = stack :=
  rfl

@[simp]
theorem current_push
    (stack : ContextStack)
    (frame : Value) :
    (stack.push frame).current = frame :=
  rfl

/--
The scope a value makes: its primitive value, or what it returns, or the value
itself.
-/
def enter
    (lambdas : Lambdas)
    (text : Option String)
    (value : Value) : Effect Value := do
  match ← value.toPrimitive? lambdas with
  | some converted => pure converted
  | none =>
    match value with
    | .lambda lambda => lambda.call lambdas text
    | value => pure value

/-- Go through scopes.  Each one becomes the root of a stack of its own. -/
def descend
    (lambdas : Lambdas)
    (text : Option String) :
    ContextStack → List String → Effect (Option ContextStack)
  | stack, [] => pure (some stack)
  | stack, segment :: rest => do
    match stack.lookup? (← get) segment with
    | none => pure none
    | some found =>
      let scope ← enter lambdas text found
      descend lambdas text (ofRoot scope) rest

/--
The value that a name stands for.  Lambdas met on the way are called for the
given section body.
-/
def resolve
    (lambdas : Lambdas)
    (stack : ContextStack)
    (name : Name)
    (text : Option String) : Effect (Option Value) := do
  match name with
  | .current => pure (some stack.current)
  | .path scopes key =>
    match ← descend lambdas text stack scopes with
    | none => pure none
    | some scope => pure (scope.lookup? (← get) key)

end ContextStack

end Mustache
