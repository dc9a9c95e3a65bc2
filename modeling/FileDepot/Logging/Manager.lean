import FileDepot.Logging.Configuration

/-!
# Logging, set up once

A configuration is taken over once; later ones are refused with a warning until the set-up is forgotten.
What was taken over stays in force even then.

Contents:

* `Logging` — the loggers and what has been set up;
* `Logging.hear`, `Logging.warn` — a message that may be heard, and a warning;
* `Logging.takeOver` — a configuration applied, with a fallback where it cannot be;
* `Logging.instance` — what was taken over, first taking over a configuration where nothing was;
* `Logging.alreadySetUp` — the warning of a set-up that comes too late;
* `Logging.setUp`, `Logging.reset`, `Logging.logger` — the operations on the set-up.
-/

namespace FileDepot

/-- The loggers, the configuration that was taken over, and whether logging is set up. -/
structure Logging where
  board : LogBoard := {}
  /-- The program around the logging. -/
  world : LogWorld := {}
  taken : Option Entries := none
  /-- The configuration that the set-up refers to. -/
  manager : Option Entries := none
  configured : Bool := false
  /-- The warnings so far. -/
  warnings : List String := []
  deriving Inhabited

/-- Steps that change the logging and may fail. -/
abbrev LoggingM := ExceptT Failure (StateM Logging)

namespace Logging

/-- The entries that a value gives as a configuration. What counts as false gives none. -/
def entriesOf (v : Value) : Except Failure Entries :=
  if v.truthy then v.pairs else .ok []

/-- The entries with a version. -/
def withVersion (es : Entries) : Entries :=
  if (es.get? "version").isSome then es else es ++ [(.text "version", .int 1)]

/-- The entries of a mapping that can be changed. -/
def ownEntries? : Value → Option Entries
  | .map .view _ => none
  | .map _ es => some es
  | _ => none

/-- Makes the directory of the file of a handler. -/
def prepareFolder (handler : Value) : LoggingM Unit := do
  let filename := ((ownEntries? handler).bind fun es => es.get? "filename").getD .null
  if filename.truthy then
    match filename.filePath? with
    | none => throw .wrongKind
    | some path =>
      let folder := FileTree.parentPath path
      if folder != "" then
        let files ← (← get).board.files.makeDirectories folder
        modify fun s => { s with board := { s.board with files := files } }

/-- Makes the directories of the files of all handlers. -/
def prepareFolders (es : Entries) : LoggingM Unit :=
  match es.get? "handlers" with
  | none => pure ()
  | some (.map _ hs) => hs.forM fun h => prepareFolder h.2
  | some v => throw (v.withoutOperation "values")

/-- The message is heard, or refused. -/
def hear (m : LogMessage) : LoggingM Unit := do
  let s ← get
  let (answer, board) := s.world.hears m s.board
  set { s with board := board }
  answer

/-- Warns with a message of the root logger. -/
def warn (text : String) : LoggingM Unit := do
  modify fun s => { s with warnings := s.warnings ++ [text] }
  hear ⟨"", LogLevel.warning, text⟩

/-- Applies a configuration and gives its entries as they are then. One that cannot be applied to its end is
answered by a handler for the root logger and a warning, unless it fails in a way for which nothing stands in. -/
def applyAll (es : Entries) : LoggingM Entries := do
  let s ← get
  let (answer, work) := LogSetup.apply.run ⟨s.board, Draft.ofEntries es, s.world.calls⟩
  let es := work.draft.given es
  match answer with
  | .ok _ =>
    set { s with board := work.board }
    pure es
  | .error f =>
    match f.failure? with
    | some failure =>
      set { s with board := work.board }
      throw failure
    | none =>
      set { s with board := work.board.addBasic }
      warn s!"Failed to configure logging with provided settings: {f.message}"
      pure es

/-- Takes over a configuration and gives its entries. -/
def takeOver (v : Value) : LoggingM Entries := do
  let es ← entriesOf v
  if es.isEmpty then pure []
  else
    let es := withVersion es
    prepareFolders es
    applyAll es

/-- The configuration that was taken over; if there is none, the given one is taken over first. -/
def «instance» (v : Value) : LoggingM Entries := do
  match (← get).taken with
  | some es => pure es
  | none =>
    let es ← takeOver v
    modify fun s => { s with taken := some es }
    pure es

/-- The name of the logger that tells of the set-up. -/
def teller : String := "pygridfs.logging.setup"

/-- Tells of the set-up. -/
def tellSetUp : LoggingM Unit := do
  modify fun s => { s with board := s.board.ensure teller }
  hear ⟨teller, LogLevel.debug, "Logging system initialized"⟩

/-- The warning of a set-up that comes when logging is set up already. -/
def alreadySetUp : String := "Logging already configured, skipping re-initialization"

/-- Sets up logging with a configuration, unless it is set up already. -/
def setUp (v : Value) : LoggingM Unit := do
  if (← get).configured then warn alreadySetUp
  else
    let es ← «instance» v
    modify fun s => { s with manager := some es }
    modify fun s => { s with configured := true }
    tellSetUp

/-- Forgets the set-up. What was applied to loggers stays. -/
def reset (s : Logging) : Logging :=
  { s with taken := none, manager := none, configured := false }

/-- The logging with a logger of a name. Before the set-up a logger without handlers gets one and shows
informative messages. -/
def logger (s : Logging) (name : String) : Logging :=
  let b := s.board.ensure name
  if (s.configured && s.manager.isSome) || !(b.logger name).handlers.isEmpty then { s with board := b }
  else { s with board := b.addEarly name }

end Logging

end FileDepot
