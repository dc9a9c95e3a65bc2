import FileDepot.Glob.Expression
import FileDepot.Logging.Level
import FileDepot.Metadata.Writer
import FileDepot.Query.Basic
import FileDepot.Query.Native
import FileDepot.Store.Bucket
import FileDepot.Store.Connection

/-!
# Templates

A template stores, finds and deletes files in one bucket, and resolves names and patterns to resources.

Contents:

* `Store`, `StoreM` — the buckets, and steps that change them and may fail;
* `Template` — the bucket, the chunk size and the writing of metadata;
* `Template.storeTelling`, `Template.findTelling`, `Template.deleteTelling` — the operations, which tell what they do;
* `Template.resourceTelling`, `Template.resourcesTelling` — resolution of names and of patterns;
* `Template.store`, `Template.find`, `Template.delete`, `Template.resource`, `Template.resources` — the same where
  nobody listens.

A step that fails keeps what it has changed before.
-/

namespace FileDepot

/-! ## The store -/

/-- The buckets by name, the number of uploads to all of them, the names of the buckets that were asked for, and what
answers for patterns in syntax that is not read. -/
structure Store where
  buckets : List (String × Bucket) := []
  uploads : Nat := 0
  requested : List String := []
  engine : Engine := fun _ _ => .error .unfinished
  deriving Inhabited

/-- A step on a store, which may fail. -/
abbrev StoreM := ExceptT Failure (StateM Store)

namespace Store

/-- The time from which uploads are dated. -/
def firstDay : DateTime :=
  { date := ⟨2024, 1, 1⟩, offset := some 0 }

/-- The bucket of a name, which is empty at first. -/
def bucket (s : Store) (name : String) : Bucket :=
  (s.buckets.lookup name).getD {}

/-- The store with a bucket set. -/
def setBucket (s : Store) (name : String) (b : Bucket) : Store :=
  { s with buckets := (name, b) :: s.buckets.filter fun e => e.1 != name }

/-- The store with a bucket changed. -/
def modifyBucket (s : Store) (name : String) (f : Bucket → Bucket) : Store :=
  s.setBucket name (f (s.bucket name))

@[simp] theorem bucket_setBucket (s : Store) (name : String) (b : Bucket) :
    (s.setBucket name b).bucket name = b := by
  simp [bucket, setBucket]

theorem lookup_filter_ne {name other : String} (h : other ≠ name) (es : List (String × Bucket)) :
    (es.filter fun e => e.1 != name).lookup other = es.lookup other := by
  induction es with
  | nil => rfl
  | cons e es ih =>
    by_cases he : e.1 = name
    · have hne : (other == e.1) = false := by simpa [he] using h
      rw [List.filter_cons_of_neg (by simp [he]), ih, List.lookup_cons, hne]
    · rw [List.filter_cons_of_pos (by simpa using he), List.lookup_cons, List.lookup_cons, ih]

theorem bucket_setBucket_of_ne (s : Store) {name other : String} (b : Bucket) (h : other ≠ name) :
    (s.setBucket name b).bucket other = s.bucket other := by
  have hne : (other == name) = false := by simpa using h
  rw [bucket, setBucket, List.lookup_cons, hne, bucket]
  exact congrArg (·.getD {}) (lookup_filter_ne h s.buckets)

/-- Uploads a file. Identifiers and dates count the uploads of the whole store; a filename must be a
text. -/
def upload (name : String) (filename : Value) (content : Bytes) (chunkSize : Option Int)
    (metadata : Value) : StoreM ObjectId := do
  match filename.text? with
  | none => throw .wrongKind
  | some filename =>
    let s ← get
    let count := s.uploads + 1
    let size := chunkSize.getD 0
    let file : StoredFile :=
      { id := ⟨count⟩
        filename
        content
        chunkSize := if size = 0 then Bucket.defaultChunkSize else size
        uploaded := firstDay.addSeconds count
        metadata }
    set { s.modifyBucket name (·.add file) with uploads := count }
    return file.id

/-- A bucket asked for by name. -/
def request (name : String) : StoreM Bucket := do
  modify fun s => { s with requested := s.requested ++ [name] }
  return (← get).bucket name

end Store

/-! ## Templates -/

/-- The operations on one bucket. -/
structure Template where
  bucket : Option String := none
  chunkSize : Option Int := none
  writer : MetadataWriter := {}
  deriving Repr, Inhabited

/-- What an upload has sent to its bucket. -/
structure Upload where
  id : ObjectId
  filename : Value
  chunkSize : Option Int
  metadata : Entries
  deriving Repr, Inhabited

/-- The files that a lookup lists, and the lookup as it was sent to the bucket. -/
structure Cursor where
  lookup : Lookup
  files : List StoredFile
  closed : Bool := false
  deriving Repr, Inhabited

/-- What the resolution of a pattern has opened, and the failure that has ended it. -/
structure Resolution where
  resources : List Resource
  failure : Option Failure := none
  deriving Repr, Inhabited

namespace Template

/-- A template of a connection and a way of writing metadata, both of which must be there. -/
def make (connection : Option Connection) (writer : Option MetadataWriter) (bucket : Option String)
    (chunkSize : Option Int) : Except Failure Template :=
  match connection, writer with
  | none, _ => .error (.invalid "db_factory must not be None")
  | some _, none => .error (.invalid "converter must not be None")
  | some _, some writer => .ok { bucket, chunkSize, writer }

/-- The name of the template's bucket. -/
def bucketName (t : Template) : String :=
  Connection.bucketOf t.bucket

/-- The template's bucket. -/
def request (t : Template) : StoreM Bucket :=
  Store.request t.bucketName

/-! ## Uploads -/

/-- The value is a content type with something in it. -/
def givesContentType (v : Value) : Except Failure Bool :=
  if !v.truthy then .ok false
  else
    match v with
    | .text s => .ok (Text.hasContent s.toList)
    | .textMember s => .ok (Text.hasContent s.toList)
    | .bytes bs => .ok (bs.any fun b => !Text.isBlankByte b)
    | .binary bs _ => .ok (bs.any fun b => !Text.isBlankByte b)
    | .foreign (.buffer name bs) =>
      if name = changeableBytes then .ok (bs.any fun b => !Text.isBlankByte b)
      else .error .lacksOperation
    | v => .error (v.withoutOperation "strip")

/-- The metadata document of an upload: the content type, then the entries of the caller's metadata, a
typed object as it is written. -/
def metadataOf (t : Template) (contentType metadata : Value) : Except Failure Entries := do
  let es : Entries := if ← givesContentType contentType then [(.text contentTypeKey, contentType)] else []
  match metadata with
  | .null => .ok es
  | .map _ es' => .ok (es.update es')
  | v =>
    match ← t.writer.write v with
    | .map _ es' => .ok (es.update es')
    | _ => .ok es

/-- Stores content under a name; a missing name is an empty one. -/
def store (t : Template) (content : Option Bytes) (filename contentType metadata : Value) :
    StoreM Upload := do
  match content with
  | none => throw (.invalid "content must not be None")
  | some content =>
    let es ← t.metadataOf contentType metadata
    let chunkSize := if t.chunkSize = some 0 then none else t.chunkSize
    let filename := if filename.isNull then .text "" else filename
    let _ ← t.request
    let id ← Store.upload t.bucketName filename content chunkSize (.document es)
    return { id, filename, chunkSize, metadata := es }

/-! ## Lookups -/

/-- A query as it is sent to a bucket. -/
def lookupOf (q : Query) : Except Failure Lookup := do
  let filter ← Native.filter (.document q.criteria)
  let sort ← Native.sort (.document (← q.sortObject))
  .ok { filter, sort, skip := q.skip, limit := q.limit }

/-- What is told of a lookup before it is made: its filter and its sort keys. -/
def announcement (l : Lookup) : Except Failure String := do
  let filter ← (Value.document l.filter).printed
  let sort ← (Value.list (l.sort.map fun (key, direction) => .tuple [key, .int direction])).printed
  .ok s!"Finding files with filter {filter} sort {sort}"

/-- The files that a lookup lists. -/
def search (t : Template) (l : Lookup) : StoreM Cursor := do
  let b ← t.request
  let files ← liftM (b.lookup (← get).engine l)
  return { lookup := l, files }

/-- Deletes the files that a cursor lists, one by one. -/
def deleteListed (t : Template) (cursor : Cursor) : StoreM Unit := do
  let s ← get
  let (b, answer) := (s.bucket t.bucketName).deleteAll (cursor.files.map (·.id))
  set (s.setBucket t.bucketName b)
  liftM answer

/-! ## Resources -/

/-- Opens a stream by name. -/
def openStream (t : Template) (name : String) : StoreM ByteStream := do
  let s ← get
  let (b, answer) := (s.bucket t.bucketName).openByName name
  set (s.setBucket t.bucketName b)
  liftM answer

/-- The query for files of one name. -/
def byName (location : String) : Query :=
  { criteria := [(.text "filename", .text location)] }

/-- The query for files whose names an expression matches. -/
def byExpression (expression : String) : Query :=
  { criteria := [(.text "filename", .document [(.text "$regex", .text expression)])] }

/-- Opens a resource for each file in turn. The first failure ends this and closes those that were
opened before. -/
def openEach {σ : Type} (openNext : StoredFile → σ → Except Failure ByteStream × σ) :
    List Resource → List StoredFile → σ → Resolution × σ
  | opened, [], s => ({ resources := opened }, s)
  | opened, f :: fs, s =>
    match openNext f s with
    | (.ok stream, s) => openEach openNext (opened ++ [{ file := f.record, stream }]) fs s
    | (.error e, s) => ({ resources := opened.map Resource.close, failure := some e }, s)

/-! ## Operations that tell what they do

The operations tell what they do where somebody may listen: whoever is told may refuse a message, and the operation
fails there. -/

/-- The name of the logger of the operations. -/
def teller : String := "pygridfs.core.gridfs.template"

section

variable {n : Type → Type} [Monad n] [MonadLiftT (StateM Store) n]
  (tell : LogMessage → ExceptT Failure n Unit)

/-- A step on the store among steps that do more. -/
def onStore {α : Type} (step : StoreM α) : ExceptT Failure n α :=
  ExceptT.mk (liftM step.run)

/-- Stores content and tells of it. -/
def storeTelling (t : Template) (content : Option Bytes) (filename contentType metadata : Value) :
    ExceptT Failure n Upload := do
  let upload ← onStore (t.store content filename contentType metadata)
  tell ⟨teller, LogLevel.debug, s!"Stored '{upload.filename.shown}' as {upload.id.render}"⟩
  return upload

/-- The files that a query selects, all of them without one. A query is told of before it is sent. -/
def findTelling (t : Template) (q : Option Query) : ExceptT Failure n Cursor := do
  match q with
  | none => onStore (t.search {})
  | some q =>
    let lookup ← onStore (liftM (lookupOf q))
    let text ← onStore (liftM (announcement lookup))
    tell ⟨teller, LogLevel.debug, text⟩
    onStore (t.search lookup)

/-- The first file that a query selects. -/
def findOneTelling (t : Template) (q : Option Query) : ExceptT Failure n (Cursor × Option StoredFile) := do
  let cursor ← t.findTelling tell q
  return ({ cursor with closed := true }, cursor.files.head?)

/-- Deletes the files that a query selects, one by one, counts them and tells how many these were. -/
def deleteTelling (t : Template) (q : Option Query) : ExceptT Failure n Nat := do
  let _ ← onStore t.request
  let cursor ← t.findTelling tell q
  onStore (t.deleteListed cursor)
  tell ⟨teller, LogLevel.info, s!"Deleted {cursor.files.length} GridFS file(s)"⟩
  return cursor.files.length

/-- The file of a name with a stream of the newest file of that name. -/
def resourceTelling (t : Template) (location : String) : ExceptT Failure n (Option Resource) := do
  let (_, file) ← t.findOneTelling tell (some (byName location))
  match file with
  | none =>
    tell ⟨teller, LogLevel.debug, s!"No GridFS file named '{location}'"⟩
    return none
  | some file =>
    let _ ← onStore t.request
    let stream ← onStore (t.openStream location)
    return some { file := file.record, stream }

/-- A resource for every file whose name a pattern matches. -/
def resourcesTelling (t : Template) (pattern : Option String) : n Resolution := do
  match pattern with
  | none => return { resources := [] }
  | some path =>
    if Text.isBlankText path then return { resources := [] }
    else
      let glob := Glob.withSeparator path none
      if !glob.hasWildcard then
        match ← (t.resourceTelling tell path).run with
        | .ok found => return { resources := found.toList }
        | .error e => return { resources := [], failure := some e }
      else
        match ← (tell ⟨teller, LogLevel.debug, s!"Resolving '{path}' as {glob.expression}"⟩).run with
        | .error e => return { resources := [], failure := some e }
        | .ok () =>
          let _ ← (onStore (n := n) t.request).run
          match ← (t.findTelling tell (some (byExpression glob.expression))).run with
          | .error e => return { resources := [], failure := some e }
          | .ok cursor =>
            liftM (show StateM Store Resolution from
              openEach (fun f => (t.openStream f.filename).run) [] cursor.files)

end

/-! ## Operations by themselves

Where nobody listens, no message is refused. -/

/-- A message that nobody hears. -/
def unheard (_ : LogMessage) : StoreM Unit :=
  pure ()

/-- The files that a query selects, all of them without one. -/
def find (t : Template) (q : Option Query) : StoreM Cursor :=
  t.findTelling unheard q

/-- The first file that a query selects. -/
def findOne (t : Template) (q : Option Query) : StoreM (Cursor × Option StoredFile) :=
  t.findOneTelling unheard q

/-- Deletes the files that a query selects, one by one, and counts them. -/
def delete (t : Template) (q : Option Query) : StoreM Nat :=
  t.deleteTelling unheard q

/-- The file of a name with a stream of the newest file of that name. -/
def resource (t : Template) (location : String) : StoreM (Option Resource) :=
  t.resourceTelling unheard location

/-- A resource for every file whose name a pattern matches. -/
def resources (t : Template) (pattern : Option String) : StateM Store Resolution :=
  t.resourcesTelling unheard pattern

end Template

end FileDepot
