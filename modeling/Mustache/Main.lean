import Mustache.CommandLine.Run

/-!
# The command-line program

The program takes in the files that its arguments name, runs on them, and writes
what the run has produced.
-/

namespace Mustache.CommandLine

/-- What is at a path: a file, or a directory with everything in it. -/
partial def takeIn (path : String) : IO (Option FileNode) := do
  let location := System.mkFilePath [path]
  if ← location.isDir then
    let mut entries : Entries FileNode := []
    for entry in ← location.readDir do
      if let some node ← takeIn (path ++ "/" ++ entry.fileName) then
        entries := entries.insert entry.fileName node
    pure (some (.directory entries))
  else if ← location.pathExists then
    pure (some (.file (← IO.FS.readBinFile location)))
  else
    pure none

/-- Add what a path leads to, and the directories that it goes through. -/
def addPath
    (working : List String)
    (root : FileNode)
    (path : String) : IO FileNode := do
  let asked :=
    match pathNames path with
    | "/" :: names => names
    | names => working ++ names
  let mut root := root
  let mut names : List String := []
  for name in asked do
    if name == ".." then
      names := names.dropLast
    else if name != "." then
      names := names ++ [name]
      if ← (System.mkFilePath [Files.absolutePath names]).isDir then
        root := FileNode.makeDirectoryAt names root
  match ← takeIn (Files.absolutePath names) with
  | some node => pure (FileNode.placeAt node names root)
  | none => pure root

/-- The rest of an input. -/
partial def readRest (input : IO.FS.Stream) (lines : String) : IO String := do
  let line ← input.getLine
  if line.isEmpty then pure lines else readRest input (lines ++ line)

/-- The input of an invocation, and the file that it writes. -/
def inputAndOutput : Invocation → Option (Input × Option String)
  | .run (.render input output) => some (input, output)
  | .run (.inspect input) => some (input, none)
  | _ => none

end Mustache.CommandLine

open Mustache CommandLine

/-- Run the program on its arguments. -/
def main (arguments : List String) : IO UInt32 := do
  let working := (pathNames (← IO.currentDir).toString).drop 1
  let named := inputAndOutput (readInvocation arguments)
  let mut root := FileNode.makeDirectoryAt working (.directory [])
  let mut standardInput := ""
  if let some (input, output) := named then
    if samePath input.template "-" then
      standardInput ← readRest (← IO.getStdin) ""
    let paths := input.template :: input.data.toList ++ input.directories ++
      input.partials.map Prod.snd ++ output.toList
    for path in paths do
      if path != "-" then
        root ← addPath working root path
  let report := run arguments ⟨root, working⟩ standardInput
  if let some (_, some output) := named then
    if let .ok text := report.files.readText output then
      if report.exitCode == 0 then
        IO.FS.writeFile output text
  IO.print report.standardOutput
  IO.eprint report.standardError
  pure report.exitCode.toUInt32
