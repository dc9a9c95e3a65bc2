import FileDepot.Store.Resource
import FileDepot.Store.Sorting

/-!
# Buckets

A bucket holds files in the order of their upload. Several files may have one name; opening by name
gives the newest of them.

Contents:

* `StoredFile` — a file with its bytes;
* `Bucket` — the files, and what has happened to the bucket;
* `Bucket.add`, `Bucket.lookup`, `Bucket.openByName`, `Bucket.delete` — its steps.
-/

namespace FileDepot

/-- A stored file. -/
structure StoredFile where
  id : ObjectId
  filename : String
  content : Bytes
  chunkSize : Int
  uploaded : DateTime
  metadata : Value
  deriving Repr, Inhabited

namespace StoredFile

/-- What a lookup tells about the file. -/
def record (f : StoredFile) : FileRecord where
  id := .objectId f.id
  filename := .text f.filename
  length := f.content.length
  uploaded := .dateTime f.uploaded
  metadata := f.metadata

/-- The document that filters and sort keys look at. -/
def document (f : StoredFile) : Value :=
  .document [(.text "_id", .objectId f.id), (.text "filename", .text f.filename),
    (.text "length", .int f.content.length), (.text "chunkSize", .int f.chunkSize),
    (.text "uploadDate", .dateTime f.uploaded), (.text "metadata", f.metadata),
    (.text "data", .bytes f.content)]

end StoredFile

/-- A bucket: its files, the identifiers of those deleted, how many streams it has opened, and the
numbers of deletions and openings from which on it refuses further ones. -/
structure Bucket where
  files : List StoredFile := []
  deleted : List ObjectId := []
  opened : Nat := 0
  deleteLimit : Option Nat := none
  openLimit : Option Nat := none
  deriving Repr, Inhabited

/-- What is asked of a bucket: a filter, sort keys and paging. -/
structure Lookup where
  filter : Entries := []
  sort : List (Value × Int) := []
  skip : Value := .int 0
  limit : Value := .int 0
  deriving Repr, Inhabited

namespace Bucket

/-- The chunk size of an upload that names none. -/
def defaultChunkSize : Int := 261120

/-- The bucket with one more file. -/
def add (b : Bucket) (f : StoredFile) : Bucket :=
  { b with files := b.files ++ [f] }

/-- The files that a lookup lists. -/
def lookup (engine : Engine) (b : Bucket) (l : Lookup) : Except Failure (List StoredFile) := do
  let found ← Filter.select engine StoredFile.document l.filter b.files
  let sorted ← Sorting.sortRecords StoredFile.document l.sort found
  let rest ← Sorting.skipRecords l.skip sorted
  Sorting.limitRecords l.limit rest

/-- The newest file of a name. -/
def newest? (b : Bucket) (name : String) : Option StoredFile :=
  (b.files.filter fun f => f.filename == name).getLast?

/-- Opens a stream of the newest file of a name. -/
def openByName (b : Bucket) (name : String) : Bucket × Except Failure ByteStream :=
  if b.openLimit.any fun n => n ≤ b.opened then
    (b, .error (.noFile s!"{name} was deleted"))
  else
    match b.newest? name with
    | some f => ({ b with opened := b.opened + 1 }, .ok { remaining := f.content })
    | none => (b, .error (.noFile s!"no version -1 for filename {Text.quoted name}"))

/-- Deletes the file with an identifier. -/
def delete (b : Bucket) (i : ObjectId) : Bucket × Except Failure Unit :=
  if b.deleteLimit.any fun n => n ≤ b.deleted.length then
    (b, .error (.noFile s!"simulated failure deleting {i.render}"))
  else if b.files.any fun f => f.id == i then
    ({ b with files := b.files.eraseP (fun f => f.id == i), deleted := b.deleted ++ [i] }, .ok ())
  else (b, .error (.noFile s!"no file could be deleted because none matched {i.render}"))

/-- Deletes files one after another up to the first failure. -/
def deleteAll (b : Bucket) : List ObjectId → Bucket × Except Failure Unit
  | [] => (b, .ok ())
  | i :: rest =>
    match b.delete i with
    | (b, .ok ()) => deleteAll b rest
    | (b, .error e) => (b, .error e)

end Bucket

end FileDepot
