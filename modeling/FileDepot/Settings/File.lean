import FileDepot.Files.Tree
import FileDepot.Settings.Environment
import FileDepot.Yaml.Meaning

/-!
# Settings files

Contents:

* `SettingsSource` — where settings come from: files, variables and the file that comes with the library;
* `SettingsSource.findFile` — the file that is read where none is named;
* `Settings.document` — the document that a file spells;
* `SettingsSource.settings` — the settings of a file with the variables laid over them.
-/

namespace FileDepot

/-- Where settings come from. -/
structure SettingsSource where
  files : FileTree
  environment : Environment
  /-- The path of the file that comes with the library. -/
  packaged : String
  deriving Repr, Inhabited

namespace Settings

/-- The variable that names a settings file. -/
def pathVariable : String := "PYGRIDFS_CONFIG_PATH"

/-- The name of a settings file. -/
def fileName : String := "config.yaml"

/-- A text whose line breaks are all of one kind. -/
def withPlainBreaks : List Char → List Char
  | [] => []
  | '\r' :: '\n' :: rest => '\n' :: withPlainBreaks rest
  | c :: rest => (if c = '\r' then '\n' else c) :: withPlainBreaks rest

/-- The entries of the document that the content of a file spells; `path` is for the report. -/
def fileEntries (path : String) (content : Bytes) : Except Failure Entries :=
  match Text.stringOfBytes? content with
  | none => .error (.undecodable path)
  | some text =>
    match Yaml.read (withPlainBreaks text.toList) with
    | .error (.malformed _) => .error (.malformedFile path)
    | .error (.impossible f) => .error f
    | .ok v =>
      if !v.truthy then .ok []
      else
        match v with
        | .map _ es => .ok es
        | _ => .error (.invalid s!"{path} must contain a mapping at the top level")

/-- The entry of a section: under its name, or else under its name in another case. -/
def sectionEntry (es : Entries) (name : String) : Option Value :=
  match es.get? name with
  | some v => some v
  | none =>
    (es.find? fun e =>
      match e.1 with
      | .text key => Text.lowered key == name
      | _ => false).map (·.2)

/-- The entries of the sections alone. -/
def sectionEntries (es : Entries) : Entries :=
  [databaseSection.name, loggingSection.name].filterMap fun name =>
    (sectionEntry es name).map fun v => (.text name, v)

end Settings

namespace SettingsSource

/-- The paths at which a settings file is looked for: the one that a variable names, the one in the
working directory, and the one that comes with the library. -/
def candidates (s : SettingsSource) : List String :=
  (s.environment.value? Settings.pathVariable).toList ++
    [FileTree.pathOf s.files.here ++ "/" ++ Settings.fileName, s.packaged]

/-- The file that is read where none is named: the first candidate that is there. -/
def findFile (s : SettingsSource) : Except Failure String :=
  match s.candidates.find? fun path => path != "" && s.files.isFile path with
  | some path => .ok path
  | none => .error (.notFound "No config.yaml found; set PYGRIDFS_CONFIG_PATH")

/-- The path of the file that is read; an empty path names none. -/
def filePath (s : SettingsSource) (path : Option String) : Except Failure String :=
  match path with
  | none => s.findFile
  | some path => if path = "" then s.findFile else .ok path

/-- The entries of all sections: those of the variables laid over those of a file. The keys of the file
must be texts. -/
def layered (s : SettingsSource) (es : Entries) : Except Failure Entries :=
  if es.all fun e => e.1.text?.isSome then do
    let rules ← VariableRules.ofEntries es
    let upper ← Settings.environmentEntries rules s.environment
    match Value.overlay (.document (Settings.sectionEntries es)) (.document upper) with
    | .map _ es => .ok es
    | _ => .ok []
  else .error .wrongKind

/-- The settings of a file with the variables laid over them. -/
def settings (s : SettingsSource) (path : Option String) : Except Failure Settings := do
  let path ← s.filePath path
  let es ← Settings.fileEntries path (← s.files.read path)
  match Settings.ofEntries (← s.layered es) with
  | .accepted settings => .ok settings
  | .refused issues => .error (.rejectedFile issues)

end SettingsSource

end FileDepot
