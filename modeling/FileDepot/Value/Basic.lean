import FileDepot.Number.Decimal
import FileDepot.Time.Calendar
import FileDepot.Value.Identifier
import FileDepot.Value.Path
import FileDepot.Value.Pattern

/-!
# Values

Everything that a caller may hand over as a part of a filter, of a metadata document or of settings.

Contents:

* `MapKind`, `Foreign`, `Value` — the values;
* `Value.entriesOf?`, `Value.text?` — the parts of a value;
* `Value.truthy` — a value as an answer to a yes-or-no question.
-/

namespace FileDepot

/-- The kinds of mappings; they differ in how they show and compare. -/
inductive MapKind
  | plain
  | ordered
  | view
  deriving Repr, DecidableEq, Inhabited

/-- A value of a kind that the library knows nothing about. -/
inductive Foreign
  /-- A value without attributes. -/
  | sealed (typeName : String)
  /-- A run of bytes that is no plain one: it can be changed, or is a view. -/
  | buffer (typeName : String) (bs : Bytes)
  /-- A row of whole numbers that is no list. -/
  | row (typeName : String) (numbers : List Int)
  /-- A producer of values, consumed by reading, that produces none. -/
  | producer
  /-- A value whose record of attributes is empty. -/
  | bare (typeName : String)
  /-- A class itself; `exports` tells that its instances can write themselves as a document. -/
  | classItself (name metatype : String) (exports : Bool)
  deriving Repr, DecidableEq, Inhabited

/-- The kind of the bytes that can be changed. -/
def changeableBytes : String := "bytearray"

/-- A value. -/
inductive Value
  | null
  | bool (b : Bool)
  | int (n : Int)
  | float (x : Binary64)
  | text (s : String)
  | bytes (bs : Bytes)
  | list (items : List Value)
  | tuple (items : List Value)
  /-- A tuple whose places have names. -/
  | namedTuple (fields : List (String × Value))
  /-- A set; a fixed one cannot change. -/
  | set (fixed : Bool) (members : List Value)
  | map (kind : MapKind) (entries : List (Value × Value))
  | objectId (i : ObjectId)
  | uuid (u : Uuid)
  | date (d : Date)
  | dateTime (t : DateTime)
  | decimal (d : Decimal)
  /-- A decimal in the form that a store keeps. -/
  | storedDecimal (d : Decimal)
  | binary (bs : Bytes) (subtype : Nat)
  | pattern (p : Pattern)
  | storedRegex (r : StoredRegex)
  | path (p : PathValue)
  /-- A member of an enumeration. -/
  | member (value : Value)
  /-- A member of an enumeration whose members are numbers. -/
  | intMember (n : Int)
  /-- A member of an enumeration whose members are texts. -/
  | textMember (s : String)
  /-- A typed object with validated fields, which may have a second name for documents. -/
  | model (fields : List (String × Option String × Value))
  /-- A typed object with declared fields. -/
  | record (fields : List (String × Value))
  /-- An object with attributes; those whose name starts with an underscore are private. -/
  | object (attributes : List (String × Value))
  /-- An object that writes itself as the given document. -/
  | exporter (document : Value)
  | foreign (f : Foreign)
  deriving Repr, Inhabited

/-- The entries of a mapping in order. -/
abbrev Entries := List (Value × Value)

namespace Value

/-- The mapping of the plain kind with the given entries. -/
def document (entries : Entries) : Value :=
  .map .plain entries

/-! ## Parts -/

/-- The entries of a mapping. -/
def entriesOf? : Value → Option Entries
  | .map _ es => some es
  | _ => none

/-- The items of a tuple. -/
def tupleItems? : Value → Option (List Value)
  | .tuple xs => some xs
  | .namedTuple fs => some (fs.map (·.2))
  | _ => none

/-- The text of a text, also of an enumeration member that is one. -/
def text? : Value → Option String
  | .text s => some s
  | .textMember s => some s
  | _ => none

/-- The whole number of a number that is one by its kind. -/
def whole? : Value → Option Int
  | .bool b => some (if b then 1 else 0)
  | .int n => some n
  | .intMember n => some n
  | _ => none

/-- The value is null. -/
def isNull : Value → Bool
  | .null => true
  | _ => false

/-- The value counts as true: no null, no zero and nothing empty. -/
def truthy : Value → Bool
  | .null => false
  | .bool b => b
  | .int n => n != 0
  | .float x => !x.isZero
  | .text s => s != ""
  | .bytes bs => !bs.isEmpty
  | .list xs => !xs.isEmpty
  | .tuple xs => !xs.isEmpty
  | .namedTuple fs => !fs.isEmpty
  | .set _ xs => !xs.isEmpty
  | .map _ es => !es.isEmpty
  | .decimal d => !d.isZero
  | .binary bs _ => !bs.isEmpty
  | .intMember n => n != 0
  | .textMember s => s != ""
  | .foreign (.buffer _ bs) => !bs.isEmpty
  | .foreign (.row _ numbers) => !numbers.isEmpty
  | _ => true

/-- The name of the kind of a value. -/
def typeName : Value → String
  | .null => "NoneType"
  | .bool _ => "bool"
  | .int _ => "int"
  | .float _ => "float"
  | .text _ => "str"
  | .bytes _ => "bytes"
  | .list _ => "list"
  | .tuple _ => "tuple"
  | .namedTuple _ => "NT"
  | .set fixed _ => if fixed then "frozenset" else "set"
  | .map kind _ =>
    match kind with
    | .plain => "dict"
    | .ordered => "OrderedDict"
    | .view => "mappingproxy"
  | .objectId _ => "ObjectId"
  | .uuid _ => "UUID"
  | .date _ => "date"
  | .dateTime _ => "datetime"
  | .decimal _ => "Decimal"
  | .storedDecimal _ => "Decimal128"
  | .binary _ _ => "Binary"
  | .pattern _ => "Pattern"
  | .storedRegex _ => "Regex"
  | .path p => p.typeName
  | .member _ => "E"
  | .intMember _ => "IE"
  | .textMember _ => "SE"
  | .model _ => "M"
  | .record _ => "D"
  | .object _ => "O"
  | .exporter _ => "T"
  | .foreign f =>
    match f with
    | .sealed name => name
    | .buffer name _ => name
    | .row name _ => name
    | .producer => "generator"
    | .bare name => name
    | .classItself _ metatype _ => metatype

end Value

end FileDepot
