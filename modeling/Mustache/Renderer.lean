import Mustache.Accessor
import Mustache.Registry
import Mustache.Render.Template
import Mustache.Value.Document

/-!
# Renderers

A renderer holds the partials and the delimiter pair that a series of templates
share.  The pair is for those templates only: partials always start with the
standard one.
-/

namespace Mustache

/-- Partials, and the delimiter pair that templates start with. -/
structure Renderer where
  partials : Partials
  delimiters : Delimiters
deriving DecidableEq, Repr, Inhabited

namespace Renderer

/-- A renderer without partials and with the standard delimiters. -/
def standard : Renderer :=
  ⟨[], .standard⟩

/-- Add a partial, in place of any other of the same name. -/
def withPartial (renderer : Renderer) (name source : String) : Renderer :=
  { renderer with partials := renderer.partials.insert name source }

/-- Add partials one after the other. -/
def withPartials
    (renderer : Renderer)
    (added : List (String × String)) : Renderer :=
  { renderer with partials := Entries.insertAll renderer.partials added }

/-- Add all partials of a registry. -/
def withRegistry
    (renderer : Renderer)
    (registry : Registry)
    (files : Files) : Except RegistryError Renderer := do
  let partials ← registry.partials files
  pure (renderer.withPartials partials)

/-- Set the delimiter pair that templates start with. -/
def withDelimiters (renderer : Renderer) (delimiters : Delimiters) : Renderer :=
  { renderer with delimiters }

/-- Render a template with data as the only frame. -/
def render
    (renderer : Renderer)
    (lambdas : Lambdas)
    (template : Text)
    (data : Value)
    (store : Store) : Except Stop Text × Store :=
  Mustache.render lambdas template data renderer.partials renderer.delimiters
    store

/-- Render a template with a document as the only frame. -/
def renderDocument
    (renderer : Renderer)
    (lambdas : Lambdas)
    (template : Text)
    (document : Document)
    (store : Store) : Except Stop Text × Store :=
  match document.toJson with
  | .error error => (.error (.failed error), store)
  | .ok json =>
    let (data, store) := (Value.ofJson json).run store
    renderer.render lambdas template data store

/-- Make accessors for the tags of a template. -/
def inspect
    (renderer : Renderer)
    (lambdas : Lambdas)
    (template : Text)
    (data : Value) : ExceptT RenderError Effect (List Accessor) :=
  Mustache.inspect lambdas template data renderer.partials renderer.delimiters

end Renderer

end Mustache
