import FileDepot.Settings.Field

/-!
# Settings

Contents:

* `DatabaseSettings` — which database, bucket and chunk size a store uses;
* `LogSettings` — what logging is set up with;
* `Settings` — both;
* `Settings.ofEntries` — settings from the entries of a document, checked field by field.

The checks keep these rules, which the later steps rely on: a database name has no blank at its ends
and is not empty, a bucket name is not blank, a chunk has between one and `largestChunk` bytes, and a
timeout is at least one millisecond.
-/

namespace FileDepot

/-- Which database, bucket and chunk size a store uses. -/
structure DatabaseSettings where
  address : String := "mongodb://localhost:27017"
  database : String := "pygridfs"
  bucket : Option String := none
  chunkSize : Option Int := none
  timeout : Int := 20000
  deriving Repr, DecidableEq, Inhabited

/-- What logging is set up with; entries without a field of their own are kept behind the others. -/
structure LogSettings where
  version : Int := 1
  disablesExisting : Bool := false
  formatters : Entries := []
  handlers : Entries := []
  root : Entries := []
  loggers : Entries := []
  extra : Entries := []
  deriving Repr, Inhabited

/-- The settings of a depot. -/
structure Settings where
  database : DatabaseSettings := {}
  logging : LogSettings := {}
  deriving Repr, Inhabited

namespace DatabaseSettings

/-- The largest chunk that may be asked for, in bytes. -/
def largestChunk : Int := 16777216

/-- A database name: a text with more than blanks, without those at its ends. -/
def nameOf (v : Value) : Except Rule String := do
  let s ← Setting.text v
  if Text.isBlankText s then .error .nameNotBlank else .ok (Text.stripped s)

/-- A bucket name: null where the text is blank. -/
def bucketOf (v : Value) : Except Rule (Option String) := do
  match ← Setting.orNull Setting.text v with
  | none => .ok none
  | some s => .ok (if Text.isBlankText s then none else some s)

/-- The section from its entries. Entries without a field are left out. -/
def ofEntries (place : List String) (es : Entries) : Checked DatabaseSettings :=
  let blank : DatabaseSettings := {}
  DatabaseSettings.mk
    <$> Setting.field place es "uri" blank.address Setting.text
    <*> Setting.field place es "database" blank.database nameOf
    <*> Setting.field place es "bucket" blank.bucket bucketOf
    <*> Setting.field place es "chunk_size_bytes" blank.chunkSize
      (Setting.orNull (Setting.wholeBetween 1 largestChunk))
    <*> Setting.field place es "connect_timeout_ms" blank.timeout (Setting.wholeFrom 1)

/-- The section as entries of a document. -/
def entries (s : DatabaseSettings) : Entries :=
  [(.text "uri", .text s.address), (.text "database", .text s.database),
    (.text "bucket", (s.bucket.map Value.text).getD .null),
    (.text "chunk_size_bytes", (s.chunkSize.map Value.int).getD .null),
    (.text "connect_timeout_ms", .int s.timeout)]

/-- The names of the fields. -/
def fieldNames : List String :=
  ["uri", "database", "bucket", "chunk_size_bytes", "connect_timeout_ms"]

end DatabaseSettings

namespace LogSettings

/-- The names of the fields that hold mappings. -/
def mappingNames : List String := ["formatters", "handlers", "root", "loggers"]

/-- The names of the fields. -/
def fieldNames : List String := ["version", "disable_existing_loggers"] ++ mappingNames

/-- The entry of a section without a field of its own, whose key must be a text. -/
def extraEntry (place : List String) (e : Value × Value) : Checked (Value × Value) :=
  match e.1.text? with
  | some key => .accepted (.text key, e.2)
  | none => .refused [⟨place ++ [Setting.keyLocation e.1], .key⟩]

/-- The entries without a field of their own. -/
def extraEntries (place : List String) : List (Value × Value) → Checked (List (Value × Value))
  | [] => .accepted []
  | e :: es =>
    if (e.1.text?.map fieldNames.contains).getD false then extraEntries place es
    else List.cons <$> extraEntry place e <*> extraEntries place es

/-- The section from its entries. -/
def ofEntries (place : List String) (es : Entries) : Checked LogSettings :=
  LogSettings.mk
    <$> Setting.field place es "version" 1 Setting.whole
    <*> Setting.field place es "disable_existing_loggers" false Setting.flag
    <*> Setting.fieldWith place es "formatters" [] Setting.mapping
    <*> Setting.fieldWith place es "handlers" [] Setting.mapping
    <*> Setting.fieldWith place es "root" [] Setting.mapping
    <*> Setting.fieldWith place es "loggers" [] Setting.mapping
    <*> extraEntries place es

/-- The section as entries of a document. -/
def entries (s : LogSettings) : Entries :=
  [(.text "version", .int s.version), (.text "disable_existing_loggers", .bool s.disablesExisting),
    (.text "formatters", .document s.formatters), (.text "handlers", .document s.handlers),
    (.text "root", .document s.root), (.text "loggers", .document s.loggers)] ++ s.extra

end LogSettings

namespace Settings

/-- A section, which must be a mapping. -/
def sectionOf {α : Type} (take : List String → Entries → Checked α) (place : List String) :
    Value → Checked α
  | .map _ es => take place es
  | _ => .refused [⟨place, .group⟩]

/-- The settings from the entries of a document. -/
def ofEntries (es : Entries) : Checked Settings :=
  Settings.mk
    <$> Setting.fieldWith [] es "mongo" {} (sectionOf DatabaseSettings.ofEntries)
    <*> Setting.fieldWith [] es "logging" {} (sectionOf LogSettings.ofEntries)

/-- The settings as entries of a document. -/
def entries (s : Settings) : Entries :=
  [(.text "mongo", .document s.database.entries), (.text "logging", .document s.logging.entries)]

/-- What a key leads to in a document; a dot in it goes one level down. -/
def lookup? : Value → List String → Option Value
  | v, [] => some v
  | .map _ es, name :: names =>
    match Entries.get? name es with
    | some v => lookup? v names
    | none => none
  | _, _ :: _ => none

/-- The setting under a dotted key. -/
def get? (s : Settings) (key : String) : Option Value :=
  lookup? (.document s.entries) ((Text.splitOn '.' key.toList).map String.ofList)

end Settings

end FileDepot
