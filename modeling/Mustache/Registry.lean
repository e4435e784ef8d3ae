import Mustache.Files
import Mustache.Render.Basic

/-!
# A registry of partials

Partials are registered as text under a name, or as files of a directory.  A
file is known by its path relative to that directory, both with and without its
extension; of files that differ only in the extension, the one with the
preferred extension gets the name without.  A name that two directories offer is
a collision.  Registered text hides a file of the same name.
-/

namespace Mustache

/-- The extensions of partials, in order of preference. -/
def templateExtensions : List String :=
  [".mustache", ".hbs", ".txt"]

/-- A name without the given ending, if it has that ending. -/
def stripEnding? (name ending : String) : Option String :=
  if ending.toList.isSuffixOf name.toList then
    some
      (String.ofList
        (name.toList.take (name.toList.length - ending.toList.length)))
  else
    none

/-- The rank of a file's extension, the preferred one first. -/
def extensionRank? (name : String) : Option Nat :=
  templateExtensions.findIdx? fun ending => ending.toList.isSuffixOf name.toList

/-- A file that can be registered as a partial. -/
structure TemplateFile where
  /-- The path relative to the source directory, without the extension. -/
  name : String
  /-- The path relative to the source directory. -/
  fullName : String
  path : String
  sourceDirectory : String
deriving DecidableEq, Repr

/-- Where the file registered under a name comes from. -/
structure TemplateSource where
  path : String
  directory : String
deriving DecidableEq, Repr

/-- Why a partial cannot be registered or found. -/
inductive RegistryError where
  /-- Files of two directories have the same name. -/
  | collision (name : String) (present added : TemplateSource)
  /-- There is no partial of that name. -/
  | notFound (name : String)
  /-- A file or directory cannot be read. -/
  | unreadable (path : String) (reason : FileError)
deriving DecidableEq, Repr

namespace RegistryError

/-- A path and its directory, as messages list them. -/
def sourceLine (source : TemplateSource) : String :=
  "\n  - " ++ source.path ++ " (from " ++ source.directory ++ ")"

/-- The message shown to the user. -/
def message : RegistryError → String
  | collision name present added =>
    "Partial collision detected for \"" ++ name ++ "\":" ++
      sourceLine present ++ sourceLine added
  | notFound name => "Partial not found: \"" ++ name ++ "\""
  | unreadable path reason =>
    "Failed to read \"" ++ path ++ "\": " ++ reason.message

end RegistryError

/-- Partials by name. -/
structure Registry where
  /-- Registered text. -/
  texts : Entries String
  /-- The paths of registered files. -/
  files : Entries String
  /-- For every name without extension the file it was registered with. -/
  sources : Entries TemplateSource
deriving DecidableEq, Repr, Inhabited

namespace Registry

/-- A registry without partials. -/
def empty : Registry :=
  ⟨[], [], []⟩

/-- Register a text. -/
def addText (registry : Registry) (name text : String) : Registry :=
  { registry with texts := registry.texts.insert name text }

/-- Register one file, unless its name belongs to another directory. -/
def addFile
    (registry : Registry)
    (file : TemplateFile) : Except RegistryError Registry :=
  match registry.sources.get? file.name with
  | some present =>
    if samePath present.directory file.sourceDirectory then
      .ok
        { registry with files := registry.files.insert file.fullName file.path }
    else
      .error (.collision file.name present ⟨file.path, file.sourceDirectory⟩)
  | none =>
    .ok
      { registry with
        sources :=
          registry.sources.insert file.name ⟨file.path, file.sourceDirectory⟩
        files :=
          (registry.files.insert file.name file.path).insert file.fullName
            file.path }

/-- Register files one after the other, up to the first collision. -/
def addEach :
    Registry → List TemplateFile → Except RegistryError Unit × Registry
  | registry, [] => (.ok (), registry)
  | registry, file :: rest =>
    match registry.addFile file with
    | .ok registry => addEach registry rest
    | .error error => (.error error, registry)

/-- Does a file come no later than another in the order of registration? -/
def comesFirst (first second : TemplateFile) : Bool :=
  match extensionRank? first.fullName, extensionRank? second.fullName with
  | some first, some second => first ≤ second
  | some _, none => true
  | none, some _ => false
  | none, none => true

/--
Register files, those with a preferred extension first.  What was registered
before a collision stays.
-/
def addFiles
    (registry : Registry)
    (files : List TemplateFile) : Except RegistryError Unit × Registry :=
  registry.addEach (files.mergeSort comesFirst)

/-- A file below a directory, if it has an extension of partials. -/
def templateFile?
    (directory : List String)
    (names : List String) : Option TemplateFile := do
  let path := Files.absolutePath (directory ++ names)
  let ending ←
    templateExtensions.find? fun ending => ending.toList.isSuffixOf path.toList
  let fullName := String.intercalate "/" names
  let name ← stripEnding? fullName ending
  pure ⟨name, fullName, path, Files.absolutePath directory⟩

/-- All partials below a directory. -/
def listDirectory
    (files : Files)
    (path : String) : Except RegistryError (List TemplateFile) :=
  match files.resolve path with
  | .error reason => .error (.unreadable path reason)
  | .ok location =>
    match location.node with
    | .file _ =>
      .error (.unreadable (Files.absolutePath location.names) .notDirectory)
    | .directory entries =>
      .ok
        ((FileNode.filesBelowEntries [] entries).filterMap
          (templateFile? location.names))

/-- Register all partials below a directory. -/
def addDirectory
    (registry : Registry)
    (files : Files)
    (path : String) : Except RegistryError Unit × Registry :=
  match listDirectory files path with
  | .error error => (.error error, registry)
  | .ok found => registry.addFiles found

/-- Is there a partial of that name? -/
def contains (registry : Registry) (name : String) : Bool :=
  registry.texts.contains name || registry.files.contains name

/-- The text of a file. -/
def readPath (files : Files) (path : String) : Except RegistryError String :=
  match files.readText path with
  | .ok text => .ok text
  | .error reason => .error (.unreadable path reason)

/-- The text of a partial. -/
def read
    (registry : Registry)
    (files : Files)
    (name : String) : Except RegistryError String :=
  match registry.texts.get? name with
  | some text => .ok text
  | none =>
    match registry.files.get? name with
    | some path => readPath files path
    | none => .error (.notFound name)

/-- All names, those of texts first. -/
def names (registry : Registry) : List String :=
  registry.texts.keys ++
    registry.files.keys.filter fun name => !registry.texts.contains name

/-- The number of names. -/
def size (registry : Registry) : Nat :=
  registry.names.length

/-- Is nothing registered? -/
def isEmpty (registry : Registry) : Bool :=
  registry.texts.isEmpty && registry.files.isEmpty

/-- The texts of all partials. -/
def partials
    (registry : Registry)
    (files : Files) : Except RegistryError Partials := do
  let read ← registry.files.mapM fun (name, path) => do
    let text ← readPath files path
    pure (name, text)
  pure (Entries.insertAll read registry.texts)

end Registry

end Mustache
