import FileDepot.Command.Basic
import FileDepot.Metadata.Pairs
import FileDepot.Query.Building
import FileDepot.Session

/-!
# The desk

What commands work on, and what each of them does there.

Contents:

* `Desk`, `DeskM` — the session, the store and the open depot, and steps that change them and may fail;
* `Template.storeFileTelling`, `Template.allByNameTelling`, `Template.removalTelling` — the commands on a store, with
  what they tell;
* `Command.performTelling`, `Command.perform` — what a command does, and what it prints;
* `Command.reports` — the failures that a command reports.

What is told on the way is heard by whoever listens, and may be refused. `Desk.openDepot`, `Template.removal` and
`Command.perform` are for desks where nobody listens.
-/

namespace FileDepot

/-- What commands work on. -/
structure Desk where
  /-- The settings, the logging and the files of the file system. -/
  session : Session := {}
  store : Store := {}
  /-- The depot, once it is open. -/
  depot : Option Depot := none
  /-- The resources that have been opened, as they were left. -/
  resources : List Resource := []
  deriving Inhabited

/-- Steps at a desk, which may fail. -/
abbrev DeskM := ExceptT Failure (StateM Desk)

namespace Desk

/-- A step on the store is a step at a desk. -/
instance : MonadLift (StateM Store) (StateM Desk) where
  monadLift step := fun d => let (a, store) := step.run d.store; (a, { d with store := store })

/-- A step on the store. -/
def onStore {α : Type} (step : StoreM α) : DeskM α :=
  Template.onStore step

/-- A step on the session. -/
def onSession {α : Type} (step : SessionM α) : DeskM α := do
  let d ← get
  let (answer, session) := step.run d.session
  set { d with session := session }
  liftM answer

/-- Takes note of resources as they are left. -/
def leave (rs : List Resource) : DeskM Unit :=
  modify fun d => { d with resources := d.resources ++ rs }

/-- The files of the file system. -/
def files : DeskM FileTree := do
  return (← get).session.files

/-- Writes a file of the file system. -/
def writeFile (path : String) (content : Bytes) : DeskM Unit := do
  let d ← get
  let files ← liftM (d.session.files.write path content)
  set { d with session := d.session.withFiles files }

/-- The depot of the desk, which is opened as the settings say if it is not open. -/
def openDepotTelling (hears : LogMessage → SessionM Unit) (config bucket : Option String) : DeskM Depot := do
  match (← get).depot with
  | some depot => pure depot
  | none =>
    let depot ← onSession (Session.openTelling hears config bucket)
    modify fun d => { d with depot := some depot }
    pure depot

/-- The depot of the desk where nobody listens. -/
def openDepot (config bucket : Option String) : DeskM Depot :=
  openDepotTelling Session.unheard config bucket

end Desk

/-! ## Commands on a store -/

namespace Template

/-- The metadata that texts of the form `key=value` give; none at all without any text. -/
def metadataOfPairs (pairs : List (String × String)) : Value :=
  if pairs.isEmpty then .null else .document (pairs.map fun (k, v) => (.text k, .text v))

/-- The query for the files that a removal concerns: those whose names the pattern matches, and without
a wildcard those of this very name. -/
def removalQuery (pattern : String) : Except Failure Query := do
  let glob := Glob.withSeparator pattern none
  let call : Criterion.Call :=
    if glob.hasWildcard then .matching (.text glob.expression) (.text "") else .equalTo (.text pattern)
  Query.ofParts [.criterion (← call.made Criterion.onFilename)]

section

variable {n : Type → Type} [Monad n] [MonadLiftT (StateM Store) n]
  (tell : LogMessage → ExceptT Failure n Unit)

/-- Stores a file of the file system. Without a name, or with an empty one, it keeps its own. -/
def storeFileTelling (t : Template) (files : FileTree) (file : String) (name contentType : Option String)
    (entries : List String) : ExceptT Failure n ObjectId := do
  let pairs ← onStore (liftM (MetadataPairs.read entries))
  let content ← onStore (liftM (files.read file))
  let name := match name with
    | some name => if name = "" then FileTree.baseName file else name
    | none => FileTree.baseName file
  let contentType : Value := match contentType with
    | some s => .text s
    | none => .null
  let upload ← t.storeTelling tell (some content) (.text name) contentType (metadataOfPairs pairs)
  return upload.id

/-- The records of all files in the order of their names. -/
def allByNameTelling (t : Template) : ExceptT Failure n (List FileRecord) := do
  let q ← onStore (liftM (({} : Query).sortBy (.text "filename") (.int 1)))
  let cursor ← t.findTelling tell (some q)
  return cursor.files.map StoredFile.record

/-- Deletes the files whose names a pattern matches, and counts them. -/
def removalTelling (t : Template) (pattern : String) : ExceptT Failure n Nat := do
  let q ← onStore (liftM (removalQuery pattern))
  t.deleteTelling tell (some q)

end

/-- Deletes the files whose names a pattern matches where nobody listens. -/
def removal (t : Template) (pattern : String) : StoreM Nat :=
  t.removalTelling unheard pattern

end Template

/-! ## Commands -/

namespace Command

/-- A line of output. -/
def line (s : String) : Bytes :=
  Text.bytesOfString (s ++ "\n")

/-- How a file is listed. -/
def listed (r : FileRecord) : Bytes :=
  line s!"{r.id.shown}\t{r.length}\t{r.filename.shown}"

section

variable (hears : LogMessage → SessionM Unit)

/-- What is told at a desk is heard by whoever listens there. -/
def tell (m : LogMessage) : DeskM Unit :=
  Desk.onSession (hears m)

/-- The records that a listing shows: those of the resources that a pattern finds, and without a pattern,
or with an empty one, those of all files. -/
def listing (t : Template) (pattern : Option String) : DeskM (List FileRecord) := do
  match pattern.filter (· ≠ "") with
  | none => t.allByNameTelling (tell hears)
  | some pattern =>
    let found ← t.resourcesTelling (n := StateM Desk) (tell hears) (some pattern)
    Desk.leave (found.resources.map Resource.close)
    match found.failure with
    | some f => throw f
    | none => pure (found.resources.map (·.file))

/-- Fetches the content of a file by name, with its record. -/
def fetch (t : Template) (name : String) : DeskM (FileRecord × Bytes) := do
  match ← t.resourceTelling (tell hears) name with
  | none => throw (.notFound s!"No file named '{name}'")
  | some r =>
    let (r, content) := r.readAndClose (.int (-1))
    Desk.leave [r]
    pure (r.file, ← liftM content)

/-- Carries a command out and gives what it prints. -/
def performTelling (t : Template) : Command → DeskM Bytes
  | .put file name contentType entries => do
    let id ← t.storeFileTelling (tell hears) (← Desk.files) file name contentType entries
    pure (line s!"Stored: {id.render}")
  | .get name output => do
    let (record, content) ← fetch hears t name
    match output.filter (· ≠ "") with
    | none => pure content
    | some path =>
      Desk.writeFile path content
      pure (line s!"Wrote {record.length} bytes to {path}")
  | .list pattern => do
    let records ← listing hears t pattern
    pure (records.flatMap listed)
  | .remove pattern => do
    let count ← t.removalTelling (tell hears) pattern
    pure (line s!"Deleted {count} file(s)")

end

/-- Carries a command out where nobody listens. -/
def perform (t : Template) (c : Command) : DeskM Bytes :=
  performTelling Session.unheard t c

/-- The failures that a command reports: those of the store, where it reads or writes files those of the
file system, and where it is given metadata those of values. -/
def reports : Command → Failure → Bool
  | .put .., f => f.origin = .value || f.origin = .fileSystem || f.origin = .store
  | .get .., f => f.origin = .fileSystem || f.origin = .store
  | .list _, f => f.origin = .store
  | .remove _, f => f.origin = .store

end Command

end FileDepot
