import FileDepot.Failure
import FileDepot.Text.Decimal
import FileDepot.Value.Compare
import FileDepot.Value.Show

/-!
# Taking values apart

Contents:

* `Value.elements?` — the values that a value yields one after another;
* `Value.pairs` — a value read as the entries of a mapping;
* `Value.twoParts` — a value read as a pair;
* `Value.toWhole` — a value read as a whole number;
* `Value.equals` — equality, which fails on a decimal that refuses to be compared.
-/

namespace FileDepot.Value

/-! ## Fields -/

/-- The names of the fields or attributes of a value. -/
def fieldNames : Value → List String
  | .namedTuple fs => fs.map (·.1)
  | .model fs => fs.map (·.1)
  | .record fs => fs.map (·.1)
  | .object fs => fs.map (·.1)
  | _ => []

/-- The failure of asking a value for an operation that its kind does not have: a field of that name is
no operation. -/
def withoutOperation (v : Value) (name : String) : Failure :=
  if v.fieldNames.contains name then .wrongKind else .lacksOperation

/-! ## Elements -/

/-- The numbers of bytes. -/
def byteNumbers (bs : Bytes) : List Value :=
  bs.map fun b => .int b.toNat

/-- The characters of a text, each as a text. -/
def characters (s : String) : List Value :=
  s.toList.map fun c => .text (String.singleton c)

/-- The values that a value yields: the items of lists, tuples and sets, the keys of a mapping, the
characters of a text, the numbers of bytes or of a row, and the fields of a model with their names. -/
def elements? : Value → Option (List Value)
  | .list xs => some xs
  | .tuple xs => some xs
  | .namedTuple fs => some (fs.map (·.2))
  | .set _ xs => some xs
  | .map _ es => some (es.map (·.1))
  | .text s => some (characters s)
  | .textMember s => some (characters s)
  | .bytes bs => some (byteNumbers bs)
  | .binary bs _ => some (byteNumbers bs)
  | .model fs => some (fs.map fun (name, _, v) => .tuple [.text name, v])
  | .foreign (.buffer _ bs) => some (byteNumbers bs)
  | .foreign (.row _ numbers) => some (numbers.map .int)
  | .foreign .producer => some []
  | _ => none

/-- The values that a value yields, or the failure of asking for them. -/
def elements (v : Value) : Except Failure (List Value) :=
  match v.elements? with
  | some vs => .ok vs
  | none => .error .wrongKind

theorem elements_eq_ok {v : Value} {vs : List Value} : v.elements = .ok vs ↔ v.elements? = some vs := by
  rw [elements]
  cases v.elements? <;> simp

/-! ## Pairs -/

/-- Reads a value as a pair. -/
def twoParts (v : Value) : Except Failure (Value × Value) :=
  match v.elements? with
  | none => .error .wrongKind
  | some [a, b] => .ok (a, b)
  | some vs =>
    if vs.length < 2 then
      .error (.invalid s!"not enough values to unpack (expected 2, got {vs.length})")
    else .error (.invalid "too many values to unpack (expected 2)")

/-- Adds pairs to the entries of a mapping; `index` counts the pairs. -/
def addPairs (index : Nat) (es : Entries) : List Value → Except Failure Entries
  | [] => .ok es
  | v :: vs =>
    match v.elements? with
    | none => .error .wrongKind
    | some [key, value] =>
      if key.hashable then addPairs (index + 1) (Entries.put key value es) vs else .error .wrongKind
    | some parts =>
      .error (.invalid
        s!"dictionary update sequence element #{index} has length {parts.length}; 2 is required")

/-- The entries of a mapping, or of a sequence of pairs. A value with a field `keys` is taken for a
mapping, which it is not. -/
def pairs (v : Value) : Except Failure Entries :=
  match v.entriesOf? with
  | some es => .ok es
  | none =>
    if v.fieldNames.contains "keys" then .error .wrongKind else (v.elements).bind (addPairs 0 [])

/-! ## Whole numbers -/

/-- The length of what a failure repeats of a text. -/
def repeatedLength : Nat := 200

/-- The failure of a text that spells no whole number; `shown` is how it is quoted. -/
def notWhole (base : Nat) (shown : String) : Failure :=
  let start := String.ofList (shown.toList.take repeatedLength)
  .invalid s!"invalid literal for int() with base {base}: {start}"

/-- Reads a whole number that is written down, `shown` being how the text is quoted in a failure. -/
def wholeOfChars (shown : String) (cs : List Char) : Except Failure Int :=
  match Text.wholeNumber cs with
  | .ok n => .ok n
  | .error .spelling => .error (notWhole 10 shown)
  | .error (.length digits) =>
    .error (.invalid (s!"Exceeds the limit ({Text.digitLimit} digits) for integer string conversion: " ++
      s!"value has {digits} digits; use sys.set_int_max_str_digits() to increase the limit"))

/-- Reads a whole number that bytes spell in ASCII digits. -/
def wholeOfBytes (bs : Bytes) : Except Failure Int :=
  let chars := bs.map fun b => if b < 128 then Char.ofNat b.toNat else '?'
  wholeOfChars (Text.quotedBytes (bs.take repeatedLength)) chars

/-- The whole part of a number, or the number that a text spells. -/
def toWhole : Value → Except Failure Int
  | .bool b => .ok (if b then 1 else 0)
  | .int n => .ok n
  | .intMember n => .ok n
  | .float .nan => .error (.invalid "cannot convert float NaN to integer")
  | .float x =>
    match x.truncated? with
    | some n => .ok n
    | none => .error .outOfRange
  | .decimal (.nan _ _ _) => .error (.invalid "cannot convert NaN to integer")
  | .decimal d =>
    match d.ratio? with
    | some (n, e) => .ok (n.tdiv e)
    | none => .error .outOfRange
  | .text s => wholeOfChars (Text.quoted s) s.toList
  | .textMember s => wholeOfChars (written (.textMember s)) s.toList
  | .bytes bs => wholeOfBytes bs
  | .binary bs _ => wholeOfBytes bs
  | .foreign (.buffer _ bs) => wholeOfBytes bs
  | .uuid u => .ok u.value
  | _ => .error .wrongKind

/-! ## Comparing -/

/-- The failure of ordering values that have no order. -/
def Unordered.failure : Unordered → Failure
  | .kinds => .wrongKind
  | .decimal => .incomparableDecimal

/-- The values are equal, or the failure of a decimal that refuses to be compared. -/
def equals (a b : Value) : Except Failure Bool :=
  if disturbs a b then .error .incomparableDecimal else .ok (same a b)

/-- The value is below zero. -/
def isNegative (v : Value) : Except Failure Bool :=
  (precedes v (.int 0)).mapError Unordered.failure

end FileDepot.Value
