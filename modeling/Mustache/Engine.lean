import Mustache.Files
import Mustache.Render.Template

/-!
# An engine of named templates

An engine keeps templates under names.  A template is checked before it is kept,
and every template can include the ones that are kept.  Data is structured data,
and each rendering works on a store of its own.
-/

namespace Mustache

/-- Templates by name, and the delimiter pair that templates start with. -/
structure Engine where
  templates : Partials
  delimiters : Delimiters
deriving DecidableEq, Repr, Inhabited

namespace Engine

/-- An engine without templates and with the standard delimiters. -/
def standard : Engine :=
  ⟨[], .standard⟩

/-- Set the delimiter pair that templates start with. -/
def withDelimiters (engine : Engine) (delimiters : Delimiters) : Engine :=
  { engine with delimiters }

/-- Keep a template if it is well formed. -/
def add
    (engine : Engine)
    (name source : String) : Except RenderError Engine := do
  validate source.toList engine.delimiters
  pure { engine with templates := engine.templates.insert name source }

/-- Keep the template in a file if it is well formed. -/
def addFile
    (engine : Engine)
    (files : Files)
    (name path : String) : Except RenderError Engine :=
  match files.readText path with
  | .error reason => .error (.io reason.message)
  | .ok source => engine.add name source

/-- Is a template kept under a name? -/
def contains (engine : Engine) (name : String) : Bool :=
  engine.templates.contains name

/-- Render a template with structured data. -/
def render
    (engine : Engine)
    (template : String)
    (data : Json) : Except Stop Text :=
  let (value, store) := (Value.ofJson data).run .empty
  (Mustache.render .none template.toList value engine.templates
    engine.delimiters store).1

/-- Render the template that is kept under a name. -/
def renderNamed
    (engine : Engine)
    (name : String)
    (data : Json) : Except Stop Text :=
  match engine.templates.get? name with
  | some template => engine.render template data
  | none => .error (.failed (.templateNotFound name))

/-- Entries with those of an object written over them. -/
def withContext (context : Entries Json) : Json → Json
  | .object entries => .object (Entries.insertAll context entries)
  | _ => .object context

/--
Render a template with further entries, over which those of the data take
precedence.
-/
def renderWithContext
    (engine : Engine)
    (template : String)
    (data : Json)
    (context : Entries Json) : Except Stop Text :=
  engine.render template (withContext context data)

/-- Templates can include one another. -/
def supportsIncludes (_engine : Engine) : Bool :=
  true

/-- Templates can branch and loop. -/
def supportsControlFlow (_engine : Engine) : Bool :=
  true

end Engine

end Mustache
