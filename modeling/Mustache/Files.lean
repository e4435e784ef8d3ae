import Mustache.Entries

/-!
# Files

A file system is a tree of directories with a working directory.  A path is
followed name by name from the root or from the working directory; every name
but the last has to lead to a directory, and so has the last one when a slash
follows it.  Names and the paths of files have a greatest length, and no path
holds the character zero.
-/

namespace Mustache

/-- A file with its bytes, or a directory with its entries. -/
inductive FileNode where
  | file (bytes : ByteArray)
  | directory (entries : List (String × FileNode))
deriving Inhabited

/-- Why a file or a directory cannot be read or written. -/
inductive FileError where
  | notFound
  | notDirectory
  | isDirectory
  /-- A name or the whole path is too long. -/
  | tooLong
  /-- The path holds the character zero. -/
  | holdsZero
  /-- The bytes are no UTF-8 text. -/
  | notText
deriving DecidableEq, Repr

/-- The message shown to the user. -/
def FileError.message : FileError → String
  | notFound => "No such file or directory (os error 2)"
  | notDirectory => "Not a directory (os error 20)"
  | isDirectory => "Is a directory (os error 21)"
  | tooLong => "File name too long (os error 36)"
  | holdsZero => "file name contained an unexpected NUL byte"
  | notText => "stream did not contain valid UTF-8"

/-- A file system. -/
structure Files where
  root : FileNode
  /-- The names that lead from the root to the working directory. -/
  working : List String
deriving Inhabited

/-- The stretches of a path between its slashes. -/
def pathParts (path : String) : List String :=
  (path.toList.splitOn '/').map String.ofList

/--
The names in a path, without those that change nothing.  An absolute path starts
with a slash of its own.
-/
def pathNames (path : String) : List String :=
  match pathParts path with
  | [] => []
  | first :: rest =>
    let kept := rest.filter fun name => name != "" && name != "."
    if first != "" then first :: kept
    else if path = "" then []
    else "/" :: kept

/-- Are two paths made of the same names? -/
def samePath (first second : String) : Bool :=
  pathNames first == pathNames second

/--
What follows the last dot of the last name in a path, unless the name starts
with that dot.
-/
def pathExtension? (path : String) : Option String :=
  match (pathNames path).getLast? with
  | none => none
  | some name =>
    let reversed := name.toList.reverse
    let extension := (reversed.takeWhile (· != '.')).reverse
    match reversed.dropWhile (· != '.') with
    | _ :: _ :: _ =>
      if name = ".." then none else some (String.ofList extension)
    | _ => none

namespace FileNode

/-- Put a node below another one, at the given names. -/
def placeAt (placed : FileNode) : List String → FileNode → FileNode
  | [], _ => placed
  | _ :: _, file bytes => file bytes
  | name :: rest, directory entries =>
    let child := (Entries.get? entries name).getD (directory [])
    directory (Entries.insert entries name (placeAt placed rest child))

/--
Make a directory below a node, at the given names, unless something is there.
-/
def makeDirectoryAt : List String → FileNode → FileNode
  | [], node => node
  | _ :: _, file old => file old
  | name :: rest, directory entries =>
    let child := (Entries.get? entries name).getD (directory [])
    directory (Entries.insert entries name (makeDirectoryAt rest child))

mutual

/--
The names that lead to the files below a node, in the order of the entries.
-/
def filesBelow (names : List String) : FileNode → List (List String)
  | file _ => [names]
  | directory entries => filesBelowEntries names entries

/-- The names that lead to the files below some entries of a directory. -/
def filesBelowEntries (names : List String) :
    List (String × FileNode) → List (List String)
  | [] => []
  | (name, node) :: rest =>
    filesBelow (names ++ [name]) node ++ filesBelowEntries names rest

end

end FileNode

namespace Files

/-- The absolute path made of the given names. -/
def absolutePath (names : List String) : String :=
  "/" ++ String.intercalate "/" names

/--
A node that has been reached, with the ones on the way to it, the nearest first.
-/
structure Location where
  above : List (String × FileNode)
  node : FileNode

/-- The names that lead from the root to a location. -/
def Location.names (location : Location) : List String :=
  (location.above.map Prod.fst).reverse

/-- The length of the longest names, in bytes. -/
def longestName : Nat :=
  255

/-- The length of the longest paths of files, in bytes. -/
def longestPath : Nat :=
  4095

/-- What a directory's entries hold under a name, if anything. -/
def lookUp
    (entries : List (String × FileNode))
    (name : String) : Except FileError (Option FileNode) :=
  if longestName < name.utf8ByteSize then
    .error .tooLong
  else
    .ok (Entries.get? entries name)

/-- Follow one name of a path. -/
def follow (location : Location) (name : String) : Except FileError Location :=
  match location.node with
  | .file _ => .error .notDirectory
  | .directory entries =>
    if name = "" ∨ name = "." then
      .ok location
    else if name = ".." then
      match location.above with
      | [] => .ok location
      | (_, parent) :: above => .ok ⟨above, parent⟩
    else
      match lookUp entries name with
      | .error error => .error error
      | .ok none => .error .notFound
      | .ok (some node) => .ok ⟨(name, location.node) :: location.above, node⟩

/-- Follow names one after the other. -/
def followAll
    (location : Location)
    (names : List String) : Except FileError Location :=
  names.foldlM follow location

/-- Follow the names of a path, from the root or from the working directory. -/
def followPath
    (files : Files)
    (path : String)
    (names : List String) : Except FileError Location :=
  if path.toList.contains '\x00' then
    .error .holdsZero
  else if path = "" then
    .error .notFound
  else if path.toList.head? = some '/' then
    followAll ⟨[], files.root⟩ names
  else do
    let working ← followAll ⟨[], files.root⟩ files.working
    followAll working names

/-- Where a path leads. -/
def resolve (files : Files) (path : String) : Except FileError Location :=
  files.followPath path (pathParts path)

/-- Follow the names of a path to a file that is to be read or written. -/
def followToFile
    (files : Files)
    (path : String)
    (names : List String) : Except FileError Location :=
  if longestPath < path.utf8ByteSize ∧ !path.toList.contains '\x00' then
    .error .tooLong
  else
    files.followPath path names

/-- The bytes of a file. -/
def readBytes (files : Files) (path : String) : Except FileError ByteArray := do
  match (← files.followToFile path (pathParts path)).node with
  | .file bytes => .ok bytes
  | .directory _ => .error .isDirectory

/-- The text of a file. -/
def readText (files : Files) (path : String) : Except FileError String := do
  match String.fromUTF8? (← files.readBytes path) with
  | some text => .ok text
  | none => .error .notText

/-- The names of a path without the empty ones at its end. -/
def withoutTrailing (names : List String) : List String :=
  (names.reverse.dropWhile (· == "")).reverse

/--
Write a text to a file, which need not exist.  A path that ends with a slash or
with dots names no file.
-/
def writeText
    (files : Files)
    (path text : String) : Except FileError Files := do
  let names := pathParts path
  let kept := withoutTrailing names
  let parent ← files.followToFile path kept.dropLast
  let name := kept.getLastD "."
  match parent.node with
  | .file _ => .error .notDirectory
  | .directory entries =>
    if kept.length < names.length ∨ name = "." ∨ name = ".." then
      .error .isDirectory
    else
      match lookUp entries name with
      | .error error => .error error
      | .ok (some (.directory _)) => .error .isDirectory
      | .ok _ =>
        .ok
          { files with
            root :=
              FileNode.placeAt (.file text.toUTF8) (parent.names ++ [name])
                files.root }

end Files

end Mustache
