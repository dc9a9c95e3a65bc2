import FileDepot.Value.Access

/-!
# Metadata documents

A typed object is written as a document: a mapping whose keys are texts and whose values a store can
keep.

Contents:

* `MetadataWriter` — how fields are named and whether null entries are kept;
* `MetadataWriter.convert` — one value;
* `MetadataWriter.write` — the document of a source.

A model writes the models and records inside its fields itself, down to the first object that it does not
know. The flag `inModel` marks the values that are reached so; it changes nothing but the name under
which a producer of values is refused.
-/

namespace FileDepot

/-- How a source is written: fields under their second names, and null entries left out. -/
structure MetadataWriter where
  byAlias : Bool := true
  excludeNull : Bool := true
  deriving Repr, DecidableEq, Inhabited

namespace MetadataWriter

/-- The name of a model's field in a document. -/
def fieldKey (w : MetadataWriter) (name : String) (secondName : Option String) : String :=
  if w.byAlias then secondName.getD name else name

/-- The entry is left out. -/
def leavesOut (w : MetadataWriter) (v : Value) : Bool :=
  w.excludeNull && v.isNull

/-- An attribute with this name is private. -/
def isPrivate (name : String) : Bool :=
  name.toList.head? == some '_'

/-- The value can be called, and what it gives is no mapping. -/
def isCallable : Value → Bool
  | .foreign (.bare name) => name == "function"
  | .foreign (.classItself _ _ _) => true
  | _ => false

/-- An attribute of the object is called in place of writing the object. -/
def exportsItself (attributes : List (String × Value)) : Bool :=
  attributes.any fun (name, v) => name == "to_dict" && isCallable v

/-- The stored form of a decimal. -/
def storedDecimal (d : Decimal) : Except Failure Value :=
  match d.toStored with
  | .ok s => .ok (.storedDecimal s)
  | .error .inexact => .error .inexactDecimal
  | .error .overflow => .error .decimalOverflow
  | .error .payload => .error (.invalid "NaN with debug payload is not supported")

/-- The document of entries, later ones of which overwrite earlier ones with the same key. -/
def gathered (es : Except Failure Entries) : Except Failure Value :=
  es.map (Value.mapOf .plain)

/-- The fields with one more: a key that is there keeps its place and takes the new value. -/
def setField {α : Type} (key : String) (v : α) : List (String × α) → List (String × α)
  | [] => [(key, v)]
  | (k, old) :: fs => if k = key then (k, v) :: fs else (k, old) :: setField key v fs

/-- The fields under their keys, which they may share: the last of them counts. -/
def lastFields {α : Type} (fs : List (String × α)) : List (String × α) :=
  fs.foldl (fun done (key, v) => setField key v done) []

/-- The entries of fields in turn, up to the first that fails; fields without a value are left out. -/
def inTurn : List (String × Option (Except Failure Value)) → Except Failure Entries
  | [] => .ok []
  | (_, none) :: fs => inTurn fs
  | (key, some v) :: fs => do
    let v ← v
    let es ← inTurn fs
    .ok ((.text key, v) :: es)

/-- The document of fields, some of which are left out. Of fields that share a key the last one counts,
also where it is left out. -/
def gatheredFields (fs : List (String × Option (Except Failure Value))) : Except Failure Value :=
  (inTurn (lastFields fs)).map .document

/-- The document of a value the library knows nothing about. -/
def foreign (inModel : Bool) : Foreign → Except Failure Entries
  | .sealed typeName => .error (.unconvertible typeName)
  | .buffer typeName _ => .error (.unconvertible typeName)
  | .row typeName _ => .error (.unconvertible typeName)
  | .producer => .error (.unconvertible (if inModel then "SerializationIterator" else "generator"))
  | .bare _ => .ok []
  | .classItself _ metatype exports =>
    .error (if exports then .wrongKind else .unconvertible metatype)

mutual

/-- A value as a store keeps it. -/
def convert (w : MetadataWriter) (inModel : Bool) : Value → Except Failure Value
  | .member v => convert w false v
  | .intMember n => .ok (.int n)
  | .textMember s => .ok (.text s)
  | .null => .ok .null
  | .bool b => .ok (.bool b)
  | .int n => .ok (.int n)
  | .float x => .ok (.float x)
  | .text s => .ok (.text s)
  | .bytes bs => .ok (.bytes bs)
  | .dateTime t => .ok (.dateTime t)
  | .objectId i => .ok (.objectId i)
  | .binary bs k => .ok (.binary bs k)
  | .storedDecimal d => .ok (.storedDecimal d)
  | .storedRegex r => .ok (.storedRegex r)
  | .pattern p => .ok (.pattern p)
  | .date d => .ok (.dateTime (.ofDate d))
  | .decimal d => storedDecimal d
  | .uuid u => .ok (.text u.render)
  | .path p => .ok (.text p.render)
  | .list vs => (convertItems w inModel vs).map .list
  | .tuple vs => (convertItems w inModel vs).map .list
  | .set _ vs => (convertItems w inModel vs).map .list
  | .namedTuple fs => (convertPlaces w inModel fs).map .list
  | .map kind es => gathered (writeEntries w (inModel && kind != .view) es)
  | .model fs => gatheredFields (writeModel w fs)
  | .record fs => gathered (writeFields w inModel fs)
  | .object fs => if exportsItself fs then .error .lacksOperation else gathered (writeAttributes w fs)
  | .exporter (.map _ es) => gathered (writeEntries w false es)
  | .exporter _ => .error .lacksOperation
  | .foreign f => gathered (foreign inModel f)
termination_by structural v => v

/-- Values as a store keeps them. -/
def convertItems (w : MetadataWriter) (inModel : Bool) : List Value → Except Failure (List Value)
  | [] => .ok []
  | v :: vs => do
    let v ← convert w inModel v
    let vs ← convertItems w inModel vs
    .ok (v :: vs)
termination_by structural vs => vs

/-- The places of a tuple as a store keeps them. -/
def convertPlaces (w : MetadataWriter) (inModel : Bool) :
    List (String × Value) → Except Failure (List Value)
  | [] => .ok []
  | (_, v) :: fs => do
    let v ← convert w inModel v
    let vs ← convertPlaces w inModel fs
    .ok (v :: vs)
termination_by structural fs => fs

/-- The entries of a mapping that are written. The key of an entry is shown before its value is converted. -/
def writeEntries (w : MetadataWriter) (inModel : Bool) :
    List (Value × Value) → Except Failure Entries
  | [] => .ok []
  | (k, v) :: es =>
    if w.leavesOut v then writeEntries w inModel es
    else do
      let key ← k.printed
      let v ← convert w inModel v
      let es ← writeEntries w inModel es
      .ok ((.text key, v) :: es)
termination_by structural es => es

/-- The fields of a record that are written. -/
def writeFields (w : MetadataWriter) (inModel : Bool) :
    List (String × Value) → Except Failure Entries
  | [] => .ok []
  | (name, v) :: fs =>
    if w.leavesOut v then writeFields w inModel fs
    else do
      let v ← convert w inModel v
      let es ← writeFields w inModel fs
      .ok ((.text name, v) :: es)
termination_by structural fs => fs

/-- The public attributes of an object that are written. -/
def writeAttributes (w : MetadataWriter) : List (String × Value) → Except Failure Entries
  | [] => .ok []
  | (name, v) :: fs =>
    if isPrivate name || w.leavesOut v then writeAttributes w fs
    else do
      let v ← convert w false v
      let es ← writeAttributes w fs
      .ok ((.text name, v) :: es)
termination_by structural fs => fs

/-- The fields of a model under their keys, each as a store keeps it, without a value where it is left
out. -/
def writeModel (w : MetadataWriter) :
    List (String × Option String × Value) → List (String × Option (Except Failure Value))
  | [] => []
  | (name, secondName, v) :: fs =>
    (w.fieldKey name secondName, if w.leavesOut v then none else some (convert w true v)) ::
      writeModel w fs
termination_by structural fs => fs

end

/-- The document of a mapping or a typed object. Binary values and members of enumerations have only private
attributes, and so have sets, which are of a kind of their own here, one that keeps its members in order. A plain set
has no attributes at all and would be refused. -/
def write (w : MetadataWriter) : Value → Except Failure Value
  | .map _ es => gathered (writeEntries w false es)
  | .model fs => gatheredFields (writeModel w fs)
  | .record fs => gathered (writeFields w false fs)
  | .object fs => if exportsItself fs then .error .lacksOperation else gathered (writeAttributes w fs)
  | .exporter (.map _ es) => gathered (writeEntries w false es)
  | .exporter _ => .error .lacksOperation
  | .foreign f => gathered (foreign false f)
  | .set _ _ => .ok (.document [])
  | .binary _ _ => .ok (.document [])
  | .member _ => .ok (.document [])
  | .intMember _ => .ok (.document [])
  | .textMember _ => .ok (.document [])
  | v => .error (.unconvertible v.typeName)

end MetadataWriter

end FileDepot
