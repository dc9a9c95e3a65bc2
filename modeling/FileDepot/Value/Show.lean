import FileDepot.Failure
import FileDepot.Number.Shortest
import FileDepot.Text.Decimal
import FileDepot.Text.Pieces
import FileDepot.Value.Basic

/-!
# Values as text

Contents:

* `Value.written` — a value as it is written down in code;
* `Value.shown` — a value as it is shown to a reader;
* `Value.writable`, `Value.printed` — the same for values whose numbers are not too long to be written; the key of
  an entry is written so;
* `Value.kindName` — the kind of a value with the group that it belongs to.
-/

namespace FileDepot

/-- Parts in a row, with brackets around them. -/
def bracketed (left right : String) (parts : List String) : String :=
  left ++ Text.commaJoin ", " parts ++ right

/-- An offset as it is written down. -/
def DateTime.writtenOffset (o : Int) : String :=
  if o = 0 then "datetime.timezone.utc" else s!"datetime.timezone({writtenSpan o})"

/-- A time as it is written down: seconds and microseconds only where there are any. -/
def DateTime.written (t : DateTime) : String :=
  let small :=
    if t.microsecond = 0 then (if t.second = 0 then [] else [toString t.second])
    else [toString t.second, toString t.microsecond]
  let offset := (t.offset.map fun o => ["tzinfo=" ++ writtenOffset o]).getD []
  bracketed "datetime.datetime(" ")"
    ([t.date.year, t.date.month, t.date.day, t.hour, t.minute].map toString ++ small ++ offset)

/-- A date as it is written down. -/
def Date.written (d : Date) : String :=
  bracketed "datetime.date(" ")" ([d.year, d.month, d.day].map toString)

namespace Value

/-- A truth value as it is written down. -/
def writtenBool (b : Bool) : String :=
  if b then "True" else "False"

/-- The subtype of binary values that are kept secret. -/
def secretSubtype : Nat := 8

mutual

/-- The value as it is written down in code. -/
def written : Value → String
  | .null => "None"
  | .bool b => writtenBool b
  | .int n => toString n
  | .float x => x.render
  | .text s => Text.quoted s
  | .bytes bs => Text.quotedBytes bs
  | .list xs => bracketed "[" "]" (writtenItems xs)
  | .tuple xs =>
    match writtenItems xs with
    | [one] => s!"({one},)"
    | parts => bracketed "(" ")" parts
  | .namedTuple fs => bracketed "NT(" ")" (writtenFields fs)
  | .set fixed xs =>
    match writtenItems xs, fixed with
    | [], false => "set()"
    | [], true => "frozenset()"
    | parts, false => bracketed "\x7b" "\x7d" parts
    | parts, true => bracketed "frozenset(\x7b" "\x7d)" parts
  | .map kind es =>
    let plain := bracketed "\x7b" "\x7d" (writtenEntries es)
    match kind with
    | .plain => plain
    | .ordered =>
      if es.isEmpty then "OrderedDict()" else bracketed "OrderedDict([" "])" (writtenPairs es)
    | .view => s!"mappingproxy({plain})"
  | .objectId i => s!"ObjectId({Text.quoted i.render})"
  | .uuid u => s!"UUID({Text.quoted u.render})"
  | .date d => d.written
  | .dateTime t => t.written
  | .decimal d => s!"Decimal({Text.quoted d.render})"
  | .storedDecimal d => s!"Decimal128({Text.quoted d.renderStored})"
  | .binary bs subtype =>
    if subtype = secretSubtype then s!"<Binary(REDACTED, {subtype})>"
    else s!"Binary({Text.quotedBytes bs}, {subtype})"
  | .pattern p => p.describe
  | .storedRegex r =>
    let source :=
      match r.source with
      | .text s => Text.quoted s
      | .bytes bs => Text.quotedBytes bs
    s!"Regex({source}, {r.flags})"
  | .path p => s!"{p.typeName}({Text.quoted p.slashed})"
  | .member v => s!"<E.A: {written v}>"
  | .intMember n => s!"<IE.A: {n}>"
  | .textMember s => s!"<SE.A: {Text.quoted s}>"
  | .model fs => bracketed "M(" ")" (writtenModelFields fs)
  | .record fs => bracketed "D(" ")" (writtenFields fs)
  | .object _ => "<O object>"
  | .exporter _ => "<T object>"
  | .foreign (.sealed name) => if name = "ellipsis" then "Ellipsis" else s!"<{name} object>"
  | .foreign (.buffer name bs) => s!"{name}({Text.quotedBytes bs})"
  | .foreign (.row name numbers) =>
    if name = "range" then s!"range(0, {numbers.length})"
    else name ++ "(" ++ bracketed "[" "])" (numbers.map toString)
  | .foreign .producer => "<generator object>"
  | .foreign (.bare name) => s!"<{name}>"
  | .foreign (.classItself name _ _) => "<class '" ++ name ++ "'>"

/-- The values as they are written down. -/
def writtenItems : List Value → List String
  | [] => []
  | v :: vs => written v :: writtenItems vs

/-- The entries as they are written down. -/
def writtenEntries : List (Value × Value) → List String
  | [] => []
  | (k, v) :: es => (written k ++ ": " ++ written v) :: writtenEntries es

/-- The entries as pairs, as they are written down. -/
def writtenPairs : List (Value × Value) → List String
  | [] => []
  | (k, v) :: es => ("(" ++ written k ++ ", " ++ written v ++ ")") :: writtenPairs es

/-- The fields as they are written down. -/
def writtenFields : List (String × Value) → List String
  | [] => []
  | (name, v) :: fs => (name ++ "=" ++ written v) :: writtenFields fs

/-- The fields of a model as they are written down. -/
def writtenModelFields : List (String × Option String × Value) → List String
  | [] => []
  | (name, _, v) :: fs => (name ++ "=" ++ written v) :: writtenModelFields fs

end

/-- The value as it is shown: a text as it is, and identifiers, times and numbers without the name of
their kind. -/
def shown : Value → String
  | .text s => s
  | .objectId i => i.render
  | .uuid u => u.render
  | .date d => d.render
  | .dateTime t => t.renderWith " "
  | .decimal d => d.render
  | .storedDecimal d => d.renderStored
  | .path p => p.render
  | .member _ => "E.A"
  | .intMember n => toString n
  | .textMember s => s
  | .model fs => Text.commaJoin " " (writtenModelFields fs)
  | .binary bs _ => Text.quotedBytes bs
  | .map .view es => bracketed "\x7b" "\x7d" (writtenEntries es)
  | v => written v

/-! ## Long numbers -/

/-- The whole number has no more digits than are written. -/
def writesWhole (n : Int) : Bool :=
  (Nat.toDigits 10 n.natAbs).length ≤ Text.digitLimit

/-- The first number with more digits than these. -/
def firstBeyond (digits : Nat) : Nat :=
  Nat.pow 10 digits

theorem length_toDigits_le (n : Nat) {digits : Nat} (h : 0 < digits) :
    (Nat.toDigits 10 n).length ≤ digits ↔ n < firstBeyond digits :=
  Nat.length_toDigits_le_iff (by decide) h

theorem writesWhole_iff {n : Int} : writesWhole n = true ↔ n.natAbs < firstBeyond Text.digitLimit := by
  rw [writesWhole, decide_eq_true_iff]
  exact length_toDigits_le n.natAbs (by decide)

mutual

/-- The value can be written down: no whole number that would be written in it is too long. -/
def writable : Value → Bool
  | .int n => writesWhole n
  | .intMember n => writesWhole n
  | .list xs => writableItems xs
  | .tuple xs => writableItems xs
  | .namedTuple fs => writableFields fs
  | .set _ xs => writableItems xs
  | .map _ es => writableEntries es
  | .storedRegex r => writesWhole r.flags
  | .member v => writable v
  | .model fs => writableModelFields fs
  | .record fs => writableFields fs
  | .foreign (.row name numbers) => name == "range" || numbers.all writesWhole
  | _ => true
termination_by structural v => v

/-- The values can be written down. -/
def writableItems : List Value → Bool
  | [] => true
  | v :: vs => writable v && writableItems vs
termination_by structural vs => vs

/-- The entries can be written down. -/
def writableEntries : List (Value × Value) → Bool
  | [] => true
  | (k, v) :: es => writable k && writable v && writableEntries es
termination_by structural es => es

/-- The fields can be written down. -/
def writableFields : List (String × Value) → Bool
  | [] => true
  | (_, v) :: fs => writable v && writableFields fs
termination_by structural fs => fs

/-- The fields of a model can be written down. -/
def writableModelFields : List (String × Option String × Value) → Bool
  | [] => true
  | (_, _, v) :: fs => writable v && writableModelFields fs
termination_by structural fs => fs

end

/-- The value can be shown. What is inside a member of an enumeration is not shown. -/
def showable : Value → Bool
  | .member _ => true
  | v => writable v

/-- The failure of a whole number that is too long to be written. -/
def longNumber : Failure :=
  .invalid (s!"Exceeds the limit ({Text.digitLimit} digits) for integer string conversion; " ++
    "use sys.set_int_max_str_digits() to increase the limit")

/-- The value as it is shown, unless a number in it is too long. -/
def printed (v : Value) : Except Failure String :=
  if v.showable then .ok v.shown else .error longNumber

@[simp] theorem printed_text (s : String) : (Value.text s).printed = .ok s := rfl

theorem shown_of_printed {v : Value} {s : String} (h : v.printed = .ok s) : v.shown = s := by
  unfold printed at h
  split at h
  · exact Except.ok.inj h
  · cases h

theorem printed_longInt {n : Int} (h : firstBeyond Text.digitLimit ≤ n.natAbs) :
    (Value.int n).printed = .error longNumber := by
  have hwrites : ¬ writesWhole n = true := by
    rw [writesWhole_iff]
    exact Nat.not_lt.mpr h
  exact if_neg hwrites

/-! ## Kinds -/

/-- The kinds that are named with the group that they belong to. -/
def groupedKinds : List (String × String) :=
  [("date", "datetime.date"), ("datetime", "datetime.datetime"), ("time", "datetime.time"),
    ("timedelta", "datetime.timedelta"), ("Decimal", "decimal.Decimal"), ("Pattern", "re.Pattern"),
    ("deque", "collections.deque"), ("TextIOWrapper", "_io.TextIOWrapper")]

/-- The name of the kind of a value, with the group of the kind where it has one. -/
def kindName (v : Value) : String :=
  (groupedKinds.lookup v.typeName).getD v.typeName

end Value

end FileDepot
