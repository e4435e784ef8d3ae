import Mustache.Render.Tag
import Mustache.Text.Line

/-!
# Templates

A template is rendered in place.  For each node read from the buffer, what the
node stands for is put in its place, and reading goes on after the replacement,
so output is never read again.  Comments, set-delimiter tags, partials and
section tags that are alone on their line take the line with them.

Partials, section bodies and the templates that lambdas return are rendered in
buffers of their own with the same context stack.  Templates may include
themselves, so the recursion runs on fuel; a finished result does not depend on
how much of it there was.
-/

namespace Mustache

open RenderM

/-- Put what a leaf stands for in its place. -/
def expandLeaf
    (lambdas : Lambdas)
    (render : TemplateRenderer)
    (partials : Partials)
    (reader : Reader)
    (token : Token) : RenderM Reader := do
  match token.kind with
  | .comment | .setDelimiters =>
    let (_, reader) ← ofEdit (reader.trimLine? token)
    ofEdit (reader.replace? token.start token.stop [])
  | .interpolation | .implicit =>
    let text ← interpolate lambdas render token.name
    ofEdit (reader.replace? token.start token.stop text.escapeMarkup)
  | .unescaped =>
    let text ← interpolate lambdas render token.name
    ofEdit (reader.replace? token.start token.stop text)
  | .inclusion =>
    let (indentation, reader) ← ofEdit (reader.trimLine? token)
    let text ← includePartial render partials token.name (indentation.getD [])
    ofEdit (reader.replace? token.start token.stop text)
  | .text | .opener | .invertedOpener | .closer => pure reader

/--
Put what a section stands for in its place.  The line of the close tag goes
first, then that of the opener, and what is then between the two is the body.
-/
def expandPaired
    (lambdas : Lambdas)
    (render : TemplateRenderer)
    (partials : Partials)
    (delimiters : Delimiters)
    (reader : Reader)
    (opener closer : Token) : RenderM Reader := do
  let (_, reader) ← ofEdit (reader.trimLine? closer)
  let (indentation, reader) ← ofEdit (reader.trimLine? opener)
  let body := reader.buffer.substring (.mark opener.stop) (.mark closer.start)
  let text ←
    expandBody lambdas render partials delimiters opener.kind opener.name body
      indentation.isSome
  ofEdit (reader.replace? opener.start closer.stop text)

/-- Put what a node stands for in its place, and let go of its marks. -/
def expandNode
    (lambdas : Lambdas)
    (render : TemplateRenderer)
    (partials : Partials)
    (delimiters : Delimiters)
    (reader : Reader)
    (node : Node) : RenderM Reader := do
  let reader ←
    match node with
    | .leaf token => expandLeaf lambdas render partials reader token
    | .paired opener closer =>
      expandPaired lambdas render partials delimiters reader opener closer
  pure (node.release reader)

/--
Read the next node and expand it.  The answer is the text of the buffer when
there is no node left, and otherwise the reader and the delimiter pair to go on
with.  A section's body is rendered with the delimiters before its opening tag.
-/
def expandNext
    (lambdas : Lambdas)
    (render : TemplateRenderer)
    (partials : Partials) :
    Reader × Delimiters → RenderM (Text ⊕ Reader × Delimiters)
  | (reader, delimiters) => do
    let (result, after, reader) := reader.nextNode delimiters
    match ← ofReading result with
    | none => pure (.inl reader.buffer.text)
    | some node =>
      let reader ← expandNode lambdas render partials delimiters reader node
      pure (.inr (reader, after))

/-- Expand the unread nodes of a reader and give back the text of its buffer. -/
def expandRest (lambdas : Lambdas) :
    Nat → Partials → Reader × Delimiters → RenderM Text
  | 0, _, _ => throw .endless
  | fuel + 1, partials, state => do
    let render : TemplateRenderer := fun template partials delimiters =>
      expandRest lambdas fuel partials (Reader.ofText template, delimiters)
    match ← expandNext lambdas render partials state with
    | .inl text => pure text
    | .inr state => expandRest lambdas fuel partials state

/--
Render a template in the current world, with a bound on how deep the recursion
goes.
-/
def interpretWithin (lambdas : Lambdas) (fuel : Nat) : TemplateRenderer :=
  fun template partials delimiters =>
    expandRest lambdas fuel partials (Reader.ofText template, delimiters)

/-- The fuel that rendering starts with. -/
def fuelLimit : Nat :=
  1000000000

/-- Render a template in the current world. -/
def interpret (lambdas : Lambdas) : TemplateRenderer :=
  interpretWithin lambdas fuelLimit

/-- Render a template with data as the only frame. -/
def render
    (lambdas : Lambdas)
    (template : Text)
    (data : Value)
    (partials : Partials)
    (delimiters : Delimiters)
    (store : Store) : Except Stop Text × Store :=
  let (result, world) :=
    interpret lambdas template partials delimiters
      ⟨store, ContextStack.ofRoot data⟩
  (result, world.store)

end Mustache
