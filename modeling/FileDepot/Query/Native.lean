import FileDepot.Value.Access

/-!
# Filters in the form that a store executes

Contents:

* `Native.fieldName` — `id` is another name of `_id`;
* `Native.convert` — one value: a compiled pattern as a stored one, an identifier under `_id`;
* `Native.fieldValue`, `Native.operand` — the value of a field, and of an operator;
* `Native.filter` — a filter;
* `Native.sort` — a sort specification as fields with whole numbers.
-/

namespace FileDepot.Native

/-- The key is one of the names of the identifier field. -/
def isIdKey (key : Value) : Bool :=
  key.text? == some "id" || key.text? == some "_id"

/-- The field that a key names. -/
def fieldName (key : Value) : Value :=
  if isIdKey key then .text "_id" else key

/-- The key joins filters. -/
def isLogical (key : Value) : Bool :=
  key.text? == some "$and" || key.text? == some "$or" || key.text? == some "$nor"

/-! ## Values -/

/-- A value that is not taken apart. Under the identifier field (`underId`) the digits of an identifier
stand for it. -/
def convert (underId : Bool) : Value → Value
  | .pattern p => .storedRegex p.toStored
  | .text s =>
    match if underId then ObjectId.ofText? s else none with
    | some i => .objectId i
    | none => .text s
  | .textMember s =>
    match if underId then ObjectId.ofText? s else none with
    | some i => .objectId i
    | none => .textMember s
  | v => v

/-- The key of an operator document starts with a dollar sign; only a text can be asked. -/
def isOperator (key : Value) : Except Failure Bool :=
  match key.text? with
  | some s => .ok (s.toList.head? == some '$')
  | none =>
    match key with
    | .bytes _ => .error .wrongKind
    | .binary _ _ => .error .wrongKind
    | _ => .error .lacksOperation

/-- The value of an operator that is a list. -/
def operandItems (underId : Bool) (items : List Value) : Value :=
  .list (items.map (convert underId))

mutual

/-- The value of a field: mappings are operator documents, lists are taken item by item. -/
def fieldValue (underId : Bool) : Value → Except Failure Value
  | .map _ es => (operands underId es).map .document
  | .list xs => (fieldItems underId xs).map .list
  | .tuple xs => (fieldItems underId xs).map .list
  | .namedTuple fs => (namedItems underId fs).map .list
  | v => .ok (convert underId v)

/-- The items of a list under a field. -/
def fieldItems (underId : Bool) : List Value → Except Failure (List Value)
  | [] => .ok []
  | v :: vs => do
    let w ← fieldValue underId v
    let ws ← fieldItems underId vs
    .ok (w :: ws)

/-- The places of a tuple under a field. -/
def namedItems (underId : Bool) : List (String × Value) → Except Failure (List Value)
  | [] => .ok []
  | (_, v) :: vs => do
    let w ← fieldValue underId v
    let ws ← namedItems underId vs
    .ok (w :: ws)

/-- The entries of an operator document. -/
def operands (underId : Bool) : List (Value × Value) → Except Failure Entries
  | [] => .ok []
  | (k, v) :: es => do
    let dollar ← isOperator k
    let w ← operand underId dollar v
    let ws ← operands underId es
    .ok ((k, w) :: ws)

/-- The value of an entry of an operator document; `dollar` tells that its key is an operator's. -/
def operand (underId dollar : Bool) : Value → Except Failure Value
  | .map _ es => (operands underId es).map .document
  | .list xs => .ok (if dollar then operandItems underId xs else .list xs)
  | .tuple xs => .ok (if dollar then operandItems underId xs else .tuple xs)
  | .namedTuple fs =>
    .ok (if dollar then operandItems underId (fs.map (·.2)) else .namedTuple fs)
  | v => .ok (convert underId v)

end

/-! ## Filters -/

/-- A filter that is no mapping: nothing at all stands for the empty one. -/
def emptyFilter (v : Value) : Except Failure Entries :=
  if v.truthy then .error (v.withoutOperation "items") else .ok []

/-- Filters that are no mappings. -/
def emptyFilters (vs : List Value) : Except Failure (List Value) :=
  vs.mapM fun v => (emptyFilter v).map .document

mutual

/-- A filter in the form that a store executes. -/
def filter : Value → Except Failure Entries
  | .map _ es => (filterEntries es).map Entries.ofPairs
  | v => emptyFilter v
termination_by structural v => v

/-- The entries of a filter, which may name a field twice. -/
def filterEntries : List (Value × Value) → Except Failure Entries
  | [] => .ok []
  | (k, v) :: es =>
    if isLogical k then do
      let joined ← joinedFilters v
      let rest ← filterEntries es
      .ok ((k, .list joined) :: rest)
    else do
      let w ← fieldValue (isIdKey k) v
      let rest ← filterEntries es
      .ok ((fieldName k, w) :: rest)
termination_by structural es => es

/-- The filters that a logical operator joins. -/
def joinedFilters : Value → Except Failure (List Value)
  | .list xs => filters xs
  | .tuple xs => filters xs
  | .set _ xs => filters xs
  | .namedTuple fs => namedFilters fs
  | .map _ es => keyFilters es
  | v => v.elements.bind emptyFilters
termination_by structural v => v

/-- Filters in a row. -/
def filters : List Value → Except Failure (List Value)
  | [] => .ok []
  | v :: vs => do
    let es ← filter v
    let ws ← filters vs
    .ok (.document es :: ws)
termination_by structural vs => vs

/-- Filters in the places of a tuple. -/
def namedFilters : List (String × Value) → Except Failure (List Value)
  | [] => .ok []
  | (_, v) :: vs => do
    let es ← filter v
    let ws ← namedFilters vs
    .ok (.document es :: ws)
termination_by structural vs => vs

/-- Filters that are the keys of a mapping. -/
def keyFilters : List (Value × Value) → Except Failure (List Value)
  | [] => .ok []
  | (k, _) :: vs => do
    let es ← filter k
    let ws ← keyFilters vs
    .ok (.document es :: ws)
termination_by structural vs => vs

end

/-! ## Sort specifications -/

/-- A sort specification as fields with whole numbers. -/
def sort : Value → Except Failure (List (Value × Int))
  | .map _ es => es.mapM fun (k, direction) => do .ok (fieldName k, ← direction.toWhole)
  | v => if v.truthy then .error (v.withoutOperation "items") else .ok []

end FileDepot.Native
