import FileDepot.Command.Arguments
import FileDepot.Files.Tree

/-!
# Commands

What can be done with the files of a bucket from the command line, and how it is written.

Contents:

* `Command` — the commands with what they work on;
* `CommandName.read` — the command that the words behind its name spell;
* `CommandLine.read` — the options in front of the name, the name, and the words behind it.

Words are read in two steps because the depot is opened between them: the options in front of the name
say how, and the words behind it are read when the depot is open.
-/

namespace FileDepot

/-- What can be done with the files of a bucket. -/
inductive Command
  /-- Stores a file, under its own name or another one, with metadata. -/
  | put (file : String) (name contentType : Option String) (entries : List String)
  /-- Fetches a file by name, and writes it or prints it. -/
  | get (name : String) (output : Option String)
  /-- Lists the files whose names a pattern matches, or all. -/
  | list (pattern : Option String)
  /-- Removes the files whose names a pattern matches. -/
  | remove (pattern : String)
  deriving Repr, DecidableEq, Inhabited

/-- Why a line is not carried out. -/
inductive Usage
  /-- It asks for help. -/
  | help
  /-- It is not a well-formed line. -/
  | misuse (reason : Misuse)
  /-- A text that can be no path stands where a path is needed. -/
  | badPath (failure : Failure)
  deriving Repr, DecidableEq, Inhabited

/-- The commands by name. -/
inductive CommandName
  | put
  | get
  | list
  | remove
  deriving Repr, DecidableEq, Inhabited

namespace CommandName

/-- All commands. -/
def all : List CommandName :=
  [.put, .get, .list, .remove]

/-- How a command is written. -/
def spelling : CommandName → String
  | .put => "put"
  | .get => "get"
  | .list => "ls"
  | .remove => "rm"

/-- The command that a word names. -/
def ofText? (word : String) : Option CommandName :=
  all.find? fun n => n.spelling == word

/-- The options of a command. -/
def options : CommandName → List OptionName
  | .put => [.name, .contentType, .entry]
  | .get => [.output]
  | .list => []
  | .remove => []

/-- A path that is given, if any, can be one. -/
def checkPath (path : Option String) : Except Usage Unit :=
  match path.bind FileTree.pathFault? with
  | some f => .error (.badPath f)
  | none => .ok ()

/-- The command that arguments spell. A file to be stored must be there, and a path to be written to must
not lead to a directory. -/
def ofArguments (files : FileTree) (a : Arguments) : CommandName → Except Usage Command
  | .put => do
    checkPath a.words.head?
    let file ← a.onlyWord.mapError .misuse
    if files.isFile file then
      .ok (.put file (a.value? .name) (a.value? .contentType) (a.values .entry))
    else .error (.misuse (.unfitPath file))
  | .get => do
    let output := a.value? .output
    checkPath output
    let name ← a.onlyWord.mapError .misuse
    match output with
    | none => .ok (.get name none)
    | some path =>
      if files.isDirectory path then .error (.misuse (.unfitPath path))
      else .ok (.get name (some path))
  | .list => do .ok (.list (← a.optionalWord.mapError .misuse))
  | .remove => do .ok (.remove (← a.onlyWord.mapError .misuse))

/-- The command that the words behind its name spell. A request for help wins over what else is wrong,
unknown options apart. -/
def read (n : CommandName) (files : FileTree) (words : List String) : Except Usage Command :=
  match Arguments.scan n.options true words with
  | .error m => .error (.misuse m)
  | .ok a => if a.helpAsked then .error .help else ofArguments files a n

end CommandName

/-- A line up to the name of its command, and the words behind it. -/
structure CommandLine where
  /-- The path of a settings file. -/
  config : Option String
  /-- The bucket to be used instead of that of the settings. -/
  bucket : Option String
  command : CommandName
  rest : List String
  deriving Repr, DecidableEq, Inhabited

namespace CommandLine

/-- The options that may stand in front of the name of a command. -/
def options : List OptionName :=
  [.config, .bucket]

/-- The command that a word names. A word that names none and starts with a dash is read as an option,
so that it may ask for help. -/
def commandOf (word : String) (rest : List String) : Except Usage CommandName :=
  match CommandName.ofText? word with
  | some n => .ok n
  | none =>
    match Arguments.scan options false (word :: rest) with
    | .error m => .error (.misuse m)
    | .ok a => .error (if a.helpAsked then .help else .misuse (.unknownCommand word))

/-- Reads a line up to the name of its command. A settings file must be there. -/
def read (files : FileTree) (line : List String) : Except Usage CommandLine :=
  if line.isEmpty then .error (.misuse .nothingGiven)
  else
    match Arguments.scan options false line with
    | .error m => .error (.misuse m)
    | .ok a =>
      if a.helpAsked then .error .help
      else do
        let config := a.value? .config
        CommandName.checkPath config
        match config.filter fun path => !files.isFile path, a.words with
        | some path, _ => .error (.misuse (.unfitPath path))
        | none, [] => .error (.misuse .missingCommand)
        | none, word :: rest =>
          (commandOf word rest).map fun command =>
            { config, bucket := a.value? .bucket, command, rest }

end CommandLine

end FileDepot
