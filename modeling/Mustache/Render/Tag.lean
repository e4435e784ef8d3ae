import Mustache.Render.Basic

/-!
# What tags stand for

An interpolation stands for the text of a value.  A lambda is called, and what
it returns is rendered as a template of its own, without partials and from the
standard delimiters.  A partial is another template, rendered in the context of
the tag with the tag's indentation before each of its lines.

A section is rendered once for each item of a list, not at all for a value that
is not truthy, and once for any other value; an inverted section once when the
section would not be rendered, and otherwise not at all.  A lambda is called
with the body, and text that it returns is rendered in the body's place.

The body is rendered with an equals sign at its end, and one at its start unless
the opening tag was alone on its line, so that its first and last tags are not
taken for tags alone on their line.  The signs are removed from the result.
-/

namespace Mustache

open RenderM

/-- The text that an interpolation stands for, unescaped. -/
def interpolate
    (lambdas : Lambdas)
    (render : TemplateRenderer)
    (name : Text) : RenderM Text := do
  match ← resolve lambdas name none with
  | none => pure []
  | some found =>
    match ← ofEffect (found.convert lambdas) with
    | .lambda lambda =>
      let template ← textOf (← ofEffect (lambda.call lambdas none))
      render template [] .standard
    | value => textOf value

/--
The text that a partial stands for.  An unknown or empty one stands for nothing.
-/
def includePartial
    (render : TemplateRenderer)
    (partials : Partials)
    (name indentation : Text) : RenderM Text :=
  match partials.get? (String.ofList name) with
  | none => pure []
  | some source =>
    if source = "" then pure []
    else render (Text.indent source.toList indentation) partials .standard

/-! ## Sections -/

/--
The items that a section's body is rendered for, when a value is no lambda to be
called.
-/
def itemsOf : Value → List Value
  | .list items => items
  | value => if value.isTruthy then [value] else []

/-- Mark the end of a body, and its start if it does not start a line. -/
def guarded (body : Text) (startsLine : Bool) : Text :=
  if startsLine then body ++ ['='] else '=' :: body ++ ['=']

/-- A text without an equals sign at its start. -/
def dropLeadingGuard : Text → Text
  | '=' :: rest => rest
  | text => text

/-- A text without an equals sign at its end. -/
def dropTrailingGuard (text : Text) : Text :=
  match text.reverse with
  | '=' :: rest => rest.reverse
  | _ => text

/-- Remove the marks that `guarded` puts. -/
def unguarded (text : Text) (startsLine : Bool) : Text :=
  dropTrailingGuard (if startsLine then text else dropLeadingGuard text)

/--
The frames for an item: the item, its primitive value if it has one, and the
result of calling the innermost of the two if that is a lambda.
-/
def framesOf (lambdas : Lambdas) (item : Value) : RenderM (List Value) := do
  let converted ← ofEffect (item.toPrimitive? lambdas)
  let frames := item :: converted.toList
  match converted.getD item with
  | .lambda lambda =>
    let result ← ofEffect (lambda.call lambdas none)
    pure (frames ++ [result])
  | _ => pure frames

/-- Render a body for one item. -/
def renderItem
    (lambdas : Lambdas)
    (render : TemplateRenderer)
    (partials : Partials)
    (delimiters : Delimiters)
    (body : Text)
    (startsLine : Bool)
    (item : Value) : RenderM Text := do
  let frames ← framesOf lambdas item
  let text ←
    withFrames frames (render (guarded body startsLine) partials delimiters)
  pure (unguarded text startsLine)

/-- Render a body for each item in turn. -/
def renderItems
    (lambdas : Lambdas)
    (render : TemplateRenderer)
    (partials : Partials)
    (delimiters : Delimiters)
    (body : Text)
    (startsLine : Bool)
    (items : List Value) : RenderM Text := do
  let texts ←
    items.mapM (renderItem lambdas render partials delimiters body startsLine)
  pure texts.flatten

/-- Does a value keep an inverted section from being rendered? -/
def hidesInverted : Option Value → Bool
  | some value => value.isTruthy
  | none => false

/-- What the name of a section stands for, converted. -/
def sectionValue
    (lambdas : Lambdas)
    (name body : Text) : RenderM (Option Value) := do
  match ← resolve lambdas name (some body) with
  | none => pure none
  | some found => some <$> ofEffect (found.convert lambdas)

/-- The text that a section stands for, given the value of its name. -/
def expandFor
    (lambdas : Lambdas)
    (render : TemplateRenderer)
    (partials : Partials)
    (delimiters : Delimiters)
    (kind : TokenKind)
    (body : Text)
    (startsLine : Bool)
    (value : Option Value) : RenderM Text :=
  if kind = .invertedOpener then
    renderItems lambdas render partials delimiters body startsLine
      (if hidesInverted value then [] else [.bool true])
  else
    match value with
    | none => renderItems lambdas render partials delimiters body startsLine []
    | some (.lambda lambda) => do
      match ← ofEffect (lambda.call lambdas (some (String.ofList body))) with
      | .string template => render template.toList partials delimiters
      | result =>
        renderItems lambdas render partials delimiters body startsLine
          (itemsOf result)
    | some value =>
      renderItems lambdas render partials delimiters body startsLine
        (itemsOf value)

/--
The text that a section stands for, given the kind and the name of its opener,
and its body.
-/
def expandBody
    (lambdas : Lambdas)
    (render : TemplateRenderer)
    (partials : Partials)
    (delimiters : Delimiters)
    (kind : TokenKind)
    (name body : Text)
    (startsLine : Bool) : RenderM Text := do
  let value ← sectionValue lambdas name body
  expandFor lambdas render partials delimiters kind body startsLine value

end Mustache
