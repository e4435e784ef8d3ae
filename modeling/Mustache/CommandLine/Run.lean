import Mustache.CommandLine.Arguments
import Mustache.Engine
import Mustache.Json.Reader
import Mustache.Renderer

/-!
# Running a command

A command reads a template, partials and data, in this order, and renders the
template or lists what its top-level tags read, a line of structured data for
each.  The first thing that goes wrong ends it with a message that tells what
was being done.
-/

namespace Mustache.CommandLine

/-- The name and version that the program reports. -/
def versionText : String :=
  "mustang 0.4.1\n"

/-- What a run leaves behind. -/
structure Report where
  exitCode : Nat
  standardOutput : String
  standardError : String
  files : Files

/-- What a command works on. -/
structure Loaded where
  template : Text
  renderer : Renderer
  data : Value
  store : Store

/-- The result of a step, or its message with what was being done. -/
def during
    {ε α : Type}
    (activity : String)
    (message : ε → String) : Except ε α → Except String α
  | .ok result => .ok result
  | .error error => .error (activity ++ ": " ++ message error)

/-- Read the template.  A dash stands for the standard input. -/
def readTemplate
    (files : Files)
    (standardInput path : String) : Except String String :=
  if samePath path "-" then
    .ok standardInput
  else
    during ("reading template " ++ path) FileError.message (files.readText path)

/-- Register directories of partials. -/
def addDirectories (files : Files) :
    Registry → List String → Except String Registry
  | registry, [] => .ok registry
  | registry, path :: rest =>
    match registry.addDirectory files path with
    | (.ok (), registry) => addDirectories files registry rest
    | (.error error, _) =>
      .error ("loading partials from " ++ path ++ ": " ++ error.message)

/-- Register files under given names. -/
def addPartials (files : Files) :
    Registry → List (String × String) → Except String Registry
  | registry, [] => .ok registry
  | registry, (name, path) :: rest => do
    let text ←
      during ("reading partial " ++ path) FileError.message
        (files.readText path)
    addPartials files (registry.addText name text) rest

/-- Read data.  The extension of the file tells what it holds. -/
def readData (files : Files) (path : String) : Except String Json := do
  let text ←
    during ("reading data " ++ path) FileError.message (files.readText path)
  let dialect ←
    match pathExtension? path with
    | some "json" => .ok Json.Dialect.json
    | some "yaml" | some "yml" => .ok Json.Dialect.yaml
    | _ =>
      .error
        ("unsupported data file " ++ path ++ ": expected .json, .yaml or .yml")
  during ("parsing " ++ dialect.name ++ " in " ++ path) Json.ParseError.message
    (Json.parse dialect text)

/-- Read everything that a command works on. -/
def load
    (files : Files)
    (standardInput : String)
    (input : Input) : Except String Loaded := do
  let template ← readTemplate files standardInput input.template
  let registry ← addDirectories files .empty input.directories
  let registry ← addPartials files registry input.partials
  let renderer ←
    match Renderer.standard.withRegistry registry files with
    | .ok renderer =>
      .ok (renderer.withDelimiters (input.delimiters.getD .standard))
    | .error error => .error error.message
  let json ←
    match input.data with
    | some path => readData files path
    | none => .ok .null
  let (data, store) := (Value.ofJson json).run .empty
  .ok ⟨template.toList, renderer, data, store⟩

/-- The message for a rendering that stopped. -/
def stopMessage : Stop → String
  | .failed error => error.message
  | .cutsCharacter => "a replacement cuts through a character"
  | .endless => "the template has no finite result"

/-- Write a rendered text to a file, or to the standard output. -/
def deliver
    (files : Files)
    (text : String) : Option String → Except String (String × Files)
  | none => .ok (text, files)
  | some path => do
    let files ←
      during ("writing " ++ path) FileError.message (files.writeText path text)
    .ok ("", files)

/-- The line that tells what a tag reads. -/
def accessorLine (accessor : Accessor) : Effect String := do
  let value ← accessor.value .none
  let json := (value.json? (← get)).getD .null
  let line := Json.object
    [("kind", .string accessor.token.kind.label),
      ("line", .number (.int (shownLine accessor.token.line))),
      ("name", .string (String.ofList accessor.token.name)),
      ("value", json)]
  pure (line.text ++ "\n")

/-- Run a command, to what it prints and the files afterwards. -/
def execute
    (files : Files)
    (standardInput : String) : Command → Except String (String × Files)
  | .render input output => do
    let loaded ← load files standardInput input
    match
        (loaded.renderer.render .none loaded.template loaded.data
          loaded.store).1 with
    | .ok text => deliver files (String.ofList text) output
    | .error stop => .error (stopMessage stop)
  | .inspect input => do
    let loaded ← load files standardInput input
    match loaded.renderer.inspect .none loaded.template loaded.data
        loaded.store with
    | (.ok accessors, store) =>
      .ok (String.join ((accessors.mapM accessorLine).run store).1, files)
    | (.error error, _) => .error error.message

/-- Run the program. -/
def run
    (arguments : List String)
    (files : Files)
    (standardInput : String) : Report :=
  match readInvocation arguments with
  | .version => ⟨0, versionText, "", files⟩
  | .help => ⟨0, "", "", files⟩
  | .malformed => ⟨2, "", "", files⟩
  | .run command =>
    match execute files standardInput command with
    | .ok (text, after) => ⟨0, text, "", after⟩
    | .error message => ⟨1, "", "Error: " ++ message ++ "\n", files⟩

end Mustache.CommandLine
