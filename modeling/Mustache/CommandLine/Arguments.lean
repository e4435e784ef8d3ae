import Mustache.Delimiters

/-!
# Command-line arguments

An invocation names a command and gives its options.  A long option takes its
value after an equals sign or from the next argument.  Short options may share
one dash; the last of them may take its value from what follows it, after an
optional equals sign, or from the next argument.  An argument that starts with a
dash is never taken as the value of the option before it, except for the single
dash.  After a double dash all arguments are positional.
-/

namespace Mustache.CommandLine

/-- What both commands read. -/
structure Input where
  /-- The template's path, or a dash for the standard input. -/
  template : String
  data : Option String
  /-- Directories of partials. -/
  directories : List String
  /-- Names and paths of single partials. -/
  partials : List (String × String)
  delimiters : Option Delimiters
deriving DecidableEq, Repr

/-- What to do. -/
inductive Command where
  | render (input : Input) (output : Option String)
  | inspect (input : Input)
deriving DecidableEq, Repr

/-- What an invocation asks for. -/
inductive Invocation where
  | run (command : Command)
  | version
  | help
  /-- The arguments make no invocation. -/
  | malformed
deriving DecidableEq, Repr

/-- The options with a value. -/
inductive OptionName where
  | data
  | directory
  | namedPartial
  | delimiters
  | output
deriving DecidableEq, Repr

/-- What has been read of a command's arguments. -/
structure Options where
  template : Option String
  data : Option String
  directories : List String
  partials : List (String × String)
  delimiters : Option Delimiters
  output : Option String
deriving DecidableEq, Repr

/-- How reading a command's arguments ends. -/
inductive Outcome where
  | options (options : Options)
  | help
  | malformed
deriving DecidableEq, Repr

namespace Options

/-- No options. -/
def empty : Options :=
  ⟨none, none, [], [], none, none⟩

/-- Split a text at its first equals sign. -/
def splitEquals? (text : String) : Option (String × String) :=
  let characters := text.toList
  match characters.dropWhile (· != '=') with
  | [] => none
  | _ :: rest =>
    some (String.ofList (characters.takeWhile (· != '=')), String.ofList rest)

/-- A path that was not given before. -/
def setPath?
    (present : Option String)
    (path : String) : Option (Option String) :=
  if path = "" ∨ present.isSome then none else some (some path)

/--
Give an option its value.  Directories and partials may be given more than once,
the other options once.  No path and no name of a partial is empty.
-/
def set?
    (options : Options)
    (name : OptionName)
    (value : String) : Option Options :=
  match name with
  | .data => (setPath? options.data value).map fun data => { options with data }
  | .output =>
    (setPath? options.output value).map fun output => { options with output }
  | .directory =>
    if value = "" then
      none
    else
      some { options with directories := options.directories ++ [value] }
  | .namedPartial =>
    match splitEquals? value with
    | none => none
    | some (name, path) =>
      if name = "" ∨ path = "" then none
      else some { options with partials := options.partials ++ [(name, path)] }
  | .delimiters =>
    match options.delimiters, Delimiters.parse? value.toList with
    | none, some delimiters =>
      some { options with delimiters := some delimiters }
    | _, _ => none

/-- Give the positional argument, the template. -/
def setTemplate? (options : Options) (value : String) : Option Options :=
  (setPath? options.template value).map fun template =>
    { options with template }

end Options

/-- The option with a long name. -/
def longOption? (takesOutput : Bool) : String → Option OptionName
  | "data" => some .data
  | "partials" => some .directory
  | "partial" => some .namedPartial
  | "delimiters" => some .delimiters
  | "output" => if takesOutput then some .output else none
  | _ => none

/-- The option with a short name. -/
def shortOption? (takesOutput : Bool) : Char → Option OptionName
  | 'd' => some .data
  | 'p' => some .directory
  | 'o' => if takesOutput then some .output else none
  | _ => none

/-- What an argument that starts with a dash says. -/
inductive Flag where
  /-- It only sets flags. -/
  | complete
  /-- It gives an option its value. -/
  | valued (name : OptionName) (value : String)
  /-- It names an option whose value is the next argument. -/
  | pending (name : OptionName)
  | version
  | help
  | unknown
deriving DecidableEq, Repr

/-- Read short options after their dash. -/
def readShort (takesOutput takesVersion : Bool) : List Char → Flag
  | [] => .complete
  | 'v' :: rest => readShort takesOutput takesVersion rest
  | 'h' :: _ => .help
  | letter :: rest =>
    if takesVersion && letter == 'V' then
      .version
    else
      match shortOption? takesOutput letter with
      | none => .unknown
      | some name =>
        match rest with
        | [] => .pending name
        | '=' :: value => .valued name (String.ofList value)
        | value => .valued name (String.ofList value)

/-- Read a long option after its two dashes. -/
def readLong (takesOutput takesVersion : Bool) (name : String) : Flag :=
  match Options.splitEquals? name with
  | some (name, value) =>
    match longOption? takesOutput name with
    | some option => .valued option value
    | none => .unknown
  | none =>
    if name = "verbose" then .complete
    else if name = "help" then .help
    else if takesVersion && name == "version" then .version
    else
      match longOption? takesOutput name with
      | some option => .pending option
      | none => .unknown

/--
What an argument says as a flag.  A single dash and everything without a dash is
none.
-/
def readFlag?
    (takesOutput takesVersion : Bool)
    (argument : String) : Option Flag :=
  match argument.toList with
  | '-' :: '-' :: name =>
    some (readLong takesOutput takesVersion (String.ofList name))
  | '-' :: letter :: rest =>
    some (readShort takesOutput takesVersion (letter :: rest))
  | _ => none

/-- Read positional arguments only. -/
def readPositional (options : Options) : List String → Outcome
  | [] => .options options
  | argument :: rest =>
    match options.setTemplate? argument with
    | some options => readPositional options rest
    | none => .malformed

/-- Read the arguments of a command. -/
def readOptions (takesOutput : Bool) (options : Options) : List String → Outcome
  | [] => .options options
  | argument :: rest =>
    if argument = "--" then
      readPositional options rest
    else
      match readFlag? takesOutput false argument with
      | none =>
        match options.setTemplate? argument with
        | some options => readOptions takesOutput options rest
        | none => .malformed
      | some .complete => readOptions takesOutput options rest
      | some .help => .help
      | some .unknown | some .version => .malformed
      | some (.valued name value) =>
        match options.set? name value with
        | some options => readOptions takesOutput options rest
        | none => .malformed
      | some (.pending name) =>
        match rest with
        | [] => .malformed
        | value :: rest =>
          if value = "--" ∨ (readFlag? takesOutput false value).isSome then
            .malformed
          else
            match options.set? name value with
            | some options => readOptions takesOutput options rest
            | none => .malformed

/-- The input that options describe, when there is a template. -/
def Options.input? (options : Options) : Option Input :=
  options.template.map fun template =>
    { template
      data := options.data
      directories := options.directories
      partials := options.partials
      delimiters := options.delimiters }

/-- Read the arguments of the command to render. -/
def readRender (arguments : List String) : Invocation :=
  match readOptions true .empty arguments with
  | .help => .help
  | .malformed => .malformed
  | .options options =>
    match options.input? with
    | some input => .run (.render input options.output)
    | none => .malformed

/-- Read the arguments of the command to inspect. -/
def readInspect (arguments : List String) : Invocation :=
  match readOptions false .empty arguments with
  | .help => .help
  | .malformed => .malformed
  | .options options =>
    match options.input? with
    | some input => .run (.inspect input)
    | none => .malformed

/-- The names of the commands. -/
def commandNames : List String :=
  ["render", "inspect", "help"]

/--
Read the arguments of the command that explains the others: the command to
explain, if any.
-/
def readHelp : List String → Invocation
  | [] => .help
  | [name] => if name ∈ commandNames then .help else .malformed
  | _ => .malformed

/-- Read an invocation. -/
def readInvocation : List String → Invocation
  | [] => .malformed
  | "render" :: rest => readRender rest
  | "inspect" :: rest => readInspect rest
  | "help" :: rest => readHelp rest
  | argument :: rest =>
    match readFlag? false true argument with
    | some .complete =>
      if argument = "--" then .malformed else readInvocation rest
    | some .version => .version
    | some .help => .help
    | _ => .malformed

end Mustache.CommandLine
