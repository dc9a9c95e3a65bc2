import FileDepot.Logging.Manager
import FileDepot.Settings.Holder
import FileDepot.Store.Template

/-!
# Sessions

A session holds what lasts between the steps of a program: the environment, the settings, the logging and
the files. From them it opens the depot that the settings describe.

Contents:

* `Session` — what lasts;
* `Depot` — a connection with the template of a bucket;
* `Connection.ofSettings` — the connection that settings describe;
* `Session.load`, `Session.setting`, `Session.settings` — the settings of a session, all of them or one;
* `Session.databaseSettings`, `Session.logEntries` — the sections of the settings;
* `Session.forgetSettings`, `Session.settingsPath` — forgetting them, and the path they were loaded with;
* `Session.hear`, `Session.unheard` — a message to those who listen to the logging, and one that nobody hears;
* `Session.openTelling` — the depot of the configured bucket, or of another one, with what is told on the way;
* `Session.open` — the same where nobody listens.
-/

namespace FileDepot

/-- What lasts between the steps of a program. -/
structure Session where
  environment : Environment := {}
  /-- The path of the settings file that comes with the library. -/
  packaged : String := ""
  holder : SettingsHolder := {}
  logging : Logging := {}
  /-- The clients that have been made. -/
  clients : List Client := []
  deriving Inhabited

/-- An open depot: a connection and the template of a bucket that is reached through it. -/
structure Depot where
  connection : Connection
  template : Template
  deriving Repr, Inhabited

/-- Steps of a session, which may fail. -/
abbrev SessionM := ExceptT Failure (StateM Session)

/-- The connection that settings describe. -/
def Connection.ofSettings (s : DatabaseSettings) : Except Failure Connection :=
  Connection.open (some (Client.ofAddress s.address s.timeout)) (.text s.database)

/-- The bucket name that counts: another one than that of the settings, if it is not empty. -/
def DatabaseSettings.bucketOr (s : DatabaseSettings) : Option String → Option String
  | none => s.bucket
  | some name => if name = "" then s.bucket else some name

namespace Session

/-- The files of a session. -/
def files (s : Session) : FileTree :=
  s.logging.board.files

/-- The session with other files. -/
def withFiles (s : Session) (files : FileTree) : Session :=
  { s with logging := { s.logging with board := { s.logging.board with files := files } } }

/-- Where the settings of a session come from. -/
def source (s : Session) : SettingsSource :=
  { files := s.files, environment := s.environment, packaged := s.packaged }

/-- A step on the settings that are held. -/
def withHolder {α : Type}
    (step : SettingsHolder → SettingsSource → Except Failure (α × SettingsHolder)) : SessionM α := do
  let s ← get
  let (a, holder) ← step s.holder s.source
  set { s with holder := holder }
  pure a

/-- Loads the settings: those of the file at a path, and without one those that are held. -/
def load (path : Option String) : SessionM Settings :=
  withHolder fun h source => h.load source path

/-- The settings that are held, loaded first if there are none. -/
def settings : SessionM Settings :=
  load none

/-- The setting under a dotted key, or a value for its absence. -/
def setting (key : String) (absent : Value) : SessionM Value :=
  withHolder fun h source => h.get source key absent

/-- The settings of the database. -/
def databaseSettings : SessionM DatabaseSettings := do
  return (← settings).database

/-- The configuration of logging, as the entries of a document. -/
def logEntries : SessionM Entries := do
  return (← settings).logging.entries

/-- Forgets the settings that are held. -/
def forgetSettings : SessionM Unit :=
  modify fun s => { s with holder := {} }

/-- The path with which the settings were loaded that are held. -/
def settingsPath (s : Session) : Option String :=
  s.holder.path

/-- Sets up logging as the settings say. -/
def setUpLogging (settings : LogSettings) : SessionM Unit := do
  let s ← get
  let (answer, logging) := (Logging.setUp (.document settings.entries)).run s.logging
  set { s with logging := logging }
  liftM answer

/-! ## Messages -/

/-- The message is heard by those who listen to the logging, or refused. -/
def hear (m : LogMessage) : SessionM Unit := do
  let s ← get
  let (answer, logging) := (Logging.hear m).run s.logging
  set { s with logging := logging }
  liftM answer

/-- A message that nobody hears. -/
def unheard (_ : LogMessage) : SessionM Unit :=
  pure ()

/-- The name of the logger of the settings. -/
def settingsTeller : String := "pygridfs.config.settings"

/-- The name of the logger of the connections. -/
def connectionTeller : String := "pygridfs.core.gridfs.db_factory"

/-- The name of the logger of the depots. -/
def depotTeller : String := "pygridfs.config.initialize"

/-! ## Opening -/

section

variable (tell : LogMessage → SessionM Unit)

/-- Tells which file is loaded. -/
def tellFile (path : Option String) : SessionM Unit := do
  let file ← liftM ((← get).source.filePath path)
  tell ⟨settingsTeller, LogLevel.info, s!"Loading configuration from: {file}"⟩

/-- Tells that the settings of a file break rules. -/
def tellRejected (f : Failure) : SessionM Unit :=
  match f with
  | .rejectedFile _ => tell ⟨settingsTeller, LogLevel.error, f.text?.getD ""⟩
  | _ => pure ()

/-- Loads the settings, tells from which file if they are not held, and tells if they break rules. -/
def loadTelling (path : Option String) : SessionM Settings := do
  if (← get).holder.settings.isNone || path.isSome then tellFile tell path
  tryCatch (load path) fun f => do
    tellRejected tell f
    throw f

/-- Connects as the settings say, with a client of its own, and tells of the client. -/
def connectTelling (settings : DatabaseSettings) : SessionM Connection := do
  tell ⟨connectionTeller, LogLevel.debug, s!"Created MongoClient for database '{settings.database}'"⟩
  let connection ← Connection.ofSettings settings
  modify fun s => { s with clients := s.clients ++ [connection.client] }
  pure connection

/-- The given connection; without one a connection as the settings say. -/
def connectionTelling (settings : DatabaseSettings) : Option Connection → SessionM Connection
  | some connection => pure connection
  | none => connectTelling tell settings

/-- Opens the depot that the settings describe: loads them, sets up logging and connects, unless it is given
a connection. Another bucket name than that of the settings counts if it is not empty. -/
def openTelling (path : Option String) (bucket : Option String) (given : Option Connection := none) :
    SessionM Depot := do
  let settings ← loadTelling tell path
  setUpLogging settings.logging
  let connection ← connectionTelling tell settings.database given
  let bucket := settings.database.bucketOr bucket
  let template ← Template.make (some connection) (some {}) bucket settings.database.chunkSize
  let database := s!"GridFS template ready for database '{connection.database}'"
  tell ⟨depotTeller, LogLevel.debug, s!"{database}, bucket '{template.bucketName}'"⟩
  pure { connection, template }

end

/-- Opens the depot that the settings describe where nobody listens. -/
def «open» (path : Option String) (bucket : Option String) (given : Option Connection := none) :
    SessionM Depot :=
  openTelling unheard path bucket given

end Session

end FileDepot
