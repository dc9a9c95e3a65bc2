import FileDepot.Number.Word
import FileDepot.Value.Access

/-!
# Resources

A resource is the handle of one stored file: its record, paired with a stream of its bytes that can be
handed out once.

Contents:

* `ByteStream` — bytes that are read from the front until the stream is closed;
* `FileRecord` — what is known about a stored file;
* `Resource` — the handle;
* `Resource.takeStream`, `Resource.read`, `Resource.close` — its steps, each of which gives the handle
  as it is afterwards.
-/

namespace FileDepot

/-! ## Streams -/

/-- Bytes that are still to be read. -/
structure ByteStream where
  remaining : Bytes
  closed : Bool := false
  deriving Repr, DecidableEq, Inhabited

namespace ByteStream

/-- How many bytes a size asks for: all of them for null and for a negative number. -/
def count? (size : Value) : Except Failure (Option Nat) :=
  match size with
  | .null => .ok none
  | v =>
    match v.whole? with
    | some n =>
      if Word.holds n then .ok (if n < 0 then none else some n.toNat) else .error .outOfRange
    | none => .error .wrongKind

/-- Reads at most as many bytes as asked for. -/
def read (s : ByteStream) (size : Value) : ByteStream × Except Failure Bytes :=
  match count? size with
  | .error e => (s, .error e)
  | .ok count =>
    if s.closed then (s, .error (.invalid "I/O operation on closed file."))
    else
      match count with
      | none => ({ s with remaining := [] }, .ok s.remaining)
      | some n => ({ s with remaining := s.remaining.drop n }, .ok (s.remaining.take n))

/-- The stream closed; closing twice changes nothing more. -/
def close (s : ByteStream) : ByteStream :=
  { s with closed := true }

end ByteStream

/-! ## Records -/

/-- What is known about a stored file. -/
structure FileRecord where
  id : Value
  filename : Value
  length : Int
  uploaded : Value
  metadata : Value
  deriving Repr, Inhabited

/-- The entry of a metadata document that holds the content type. -/
def contentTypeKey : String := "type"

namespace FileRecord

/-- The metadata document; none at all counts as an empty one. -/
def document (r : FileRecord) : Except Failure Entries :=
  if r.metadata.truthy then r.metadata.pairs else .ok []

/-- The content type that the metadata document records. -/
def contentType (r : FileRecord) : Except Failure Value :=
  if r.metadata.truthy then
    match r.metadata with
    | .map _ es => .ok ((Entries.get? contentTypeKey es).getD .null)
    | v => .error (v.withoutOperation "get")
  else .ok .null

end FileRecord

/-! ## Handles -/

/-- The handle of a stored file. -/
structure Resource where
  file : FileRecord
  stream : ByteStream
  taken : Bool := false
  deriving Repr, Inhabited

namespace Resource

/-- Pairs a record with a stream, both of which must be there. -/
def pairUp (file : Option FileRecord) (stream : Option ByteStream) : Except Failure Resource :=
  match file, stream with
  | none, _ => .error (.invalid "GridFS file record must not be None")
  | some _, none => .error (.invalid "Download stream must not be None")
  | some file, some stream => .ok { file, stream }

/-- The name of the file in a description. -/
def description (r : Resource) : String :=
  s!"GridFs resource [{r.file.filename.shown}]"

/-- How a resource is shown. -/
def describe (r : Resource) : String :=
  s!"GridFsResource({r.description})"

/-- Hands out the stream, which is possible once and only before any reading. -/
def takeStream (r : Resource) : Resource × Except Failure ByteStream :=
  if r.taken then
    (r, .error (.streamTaken s!"{r.description}: input stream already consumed"))
  else ({ r with taken := true }, .ok r.stream)

/-- Reads from the stream, which can no longer be taken afterwards. -/
def read (r : Resource) (size : Value) : Resource × Except Failure Bytes :=
  let (stream, answer) := r.stream.read size
  ({ r with stream, taken := true }, answer)

/-- Reads from the stream as one who has taken it. -/
def readTaken (r : Resource) (size : Value) : Resource × Except Failure Bytes :=
  let (stream, answer) := r.stream.read size
  ({ r with stream }, answer)

/-- The handle with its stream closed. -/
def close (r : Resource) : Resource :=
  { r with stream := r.stream.close }

/-- Reads and closes the handle, whatever reading gives. -/
def readAndClose (r : Resource) (size : Value) : Resource × Except Failure Bytes :=
  let (r, answer) := r.read size
  (r.close, answer)

end Resource

end FileDepot
