import Mustache.Render.Basic

/-!
# Access to the data behind tags

An accessor belongs to a tag at the top level of a template that reads from the
context.  It remembers the value that owns what the tag names, so the value
behind the tag can be read and written without rendering.  Writing goes to the
owner's table and is seen by everything that refers to it.
-/

namespace Mustache

/-- What an accessor reads. -/
inductive AccessTarget where
  /-- The owner itself. -/
  | owner
  /-- What the owner has under a key. -/
  | key (key : String)
  /-- The text of a partial, if there is one. -/
  | template (source : Option String)
deriving DecidableEq, Repr

/-- Access to the value behind a tag. -/
structure Accessor where
  token : Token
  owner : Value
  target : AccessTarget
  /-- The body, when the tag opens a section. -/
  body : Option Text

namespace Accessor

/-- The owner and the target of a tag's name in a context. -/
def locate
    (lambdas : Lambdas)
    (stack : ContextStack)
    (partials : Partials)
    (token : Token)
    (body : Option Text) : Effect (Value × AccessTarget) := do
  match token.kind with
  | .inclusion =>
    pure (stack.current, .template (partials.get? (String.ofList token.name)))
  | .implicit => pure (stack.current, .owner)
  | _ =>
    match Name.ofText token.name with
    | .current => pure (stack.current, .owner)
    | .path [] key =>
      match stack.lookupOwner? (← get) key with
      | some (owner, _) => pure (owner, .key key)
      | none => pure (stack.current, .key key)
    | .path scopes key =>
      match ← stack.descend lambdas (body.map String.ofList) scopes with
      | some scope => pure (scope.root, .key key)
      | none => pure (.null, .key key)

/-- The value as it is stored, or null. -/
def stored (accessor : Accessor) (store : Store) : Value :=
  match accessor.target with
  | .owner => accessor.owner
  | .key key => (accessor.owner.get? store key).getD .null
  | .template (some source) => .string source
  | .template none => .null

/-- A lambda without a receiver is bound to the map that owns it. -/
def bound (accessor : Accessor) (lambda : Lambda) : Lambda :=
  match accessor.owner, lambda.receiver with
  | .map _, none => lambda.bind accessor.owner
  | _, _ => lambda

/--
The value as rendering sees it: converted if it is a map with a primitive
conversion, and what it returns if it is a lambda.
-/
def value (accessor : Accessor) (lambdas : Lambdas) : Effect Value := do
  let stored := accessor.stored (← get)
  match ← stored.toPrimitive? lambdas with
  | some converted => pure converted
  | none =>
    match stored with
    | .lambda lambda =>
      (accessor.bound lambda).call lambdas (accessor.body.map String.ofList)
    | stored => pure stored

/--
Write a value.  A stored lambda with a setter is handed the value; otherwise it
goes under the key of the owner, if that is a map.  The answer tells whether
there was a place to write to.
-/
def write
    (accessor : Accessor)
    (lambdas : Lambdas)
    (value : Value) : Effect Bool := do
  match accessor.stored (← get) with
  | .lambda ⟨function, some setter, receiver⟩ =>
    LambdaOf.assign ⟨function, some setter, receiver⟩ lambdas value
  | _ =>
    match accessor.target, accessor.owner with
    | .key key, .map map =>
      let _ ← map.insert key value
      pure true
    | _, _ => pure false

end Accessor

/-- The body of a section node. -/
def Node.body? (reader : Reader) : Node → Option Text
  | .leaf _ => none
  | .paired opener closer =>
    some (reader.buffer.substring (.mark opener.stop) (.mark closer.start))

/-- Make accessors for the unread nodes of a reader. -/
def inspectRest
    (lambdas : Lambdas)
    (stack : ContextStack)
    (partials : Partials) :
    Nat → Reader → Delimiters → Array Accessor →
    ExceptT RenderError Effect (List Accessor)
  | 0, _, _, accessors => pure accessors.toList
  | budget + 1, reader, delimiters, accessors => do
    match reader.nextNode delimiters with
    | (.error error, _, _) => throw error
    | (.ok none, _, _) => pure accessors.toList
    | (.ok (some node), delimiters, reader) =>
      if node.head.kind.readsContext then
        let body := node.body? reader
        let (owner, target) ←
          Accessor.locate lambdas stack partials node.head body
        inspectRest lambdas stack partials budget reader delimiters
          (accessors.push ⟨node.head, owner, target, body⟩)
      else
        inspectRest lambdas stack partials budget reader delimiters accessors

/--
Make an accessor for each tag at the top level of a template that reads from the
data.
-/
def inspect
    (lambdas : Lambdas)
    (template : Text)
    (data : Value)
    (partials : Partials)
    (delimiters : Delimiters) : ExceptT RenderError Effect (List Accessor) :=
  inspectRest lambdas (ContextStack.ofRoot data) partials (template.length + 1)
    (Reader.ofText template) delimiters #[]

end Mustache
