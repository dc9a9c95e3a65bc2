import FileDepot.Logging.Outside
import FileDepot.Text.WordChar

/-!
# Configurations in use

A configuration is taken into use step by step: a mapping becomes a table and a list a row when it is first
asked for, and a text that refers to something is replaced by what it refers to. Tables and rows are kept by
number, so that a reference and the place that it refers to share one table. What is seen through a view of a
mapping is not taken into use; a mapping seen so is changed where it stands.

A text refers to a thing of the program by `ext://` and its dotted name, and to another part of the
configuration by `cfg://` and a path of names and indices.

Contents:

* `Item`, `Draft` — the parts of a configuration in use;
* `DraftFault` — why a reference leads nowhere;
* `Draft.take` — an item taken into use;
* `Item.entries?`, `Item.changeable?` — the entries of an item;
* `Draft.entry`, `Draft.entryOr`, `Draft.pop` — single entries;
* `Draft.value`, `Draft.truthy`, `Draft.elements?` — an item as a value.
-/

namespace FileDepot

/-- A part of a configuration in use. -/
inductive Item
  /-- A value as it was given. -/
  | plain (v : Value)
  | table (n : Nat)
  | row (n : Nat)
  /-- A view of a mapping. -/
  | view (n : Nat)
  /-- A mapping that is seen through a view. -/
  | seen (n : Nat)
  /-- A tuple in use; it cannot change. -/
  | tuple (items : List Value)
  | outside (o : Outside)
  /-- A formatter that has been made, with its format. -/
  | formatter (format : Value)
  /-- A filter that has been made, with the name of the logger from which it lets messages pass. -/
  | filter (name : Value)
  /-- Anything else that has been made. -/
  | thing
  /-- The number of a handler that has been made. -/
  | handler (n : Nat)
  deriving Repr, Inhabited

/-- The entries of a table. -/
abbrev TableEntries := List (Value × Item)

/-- Where entries stand: the number of their table, and whether they are taken into use. -/
structure Access where
  number : Nat
  taking : Bool
  deriving Repr, DecidableEq

namespace Item

/-- The entries of an item. -/
def entries? : Item → Option Access
  | .table n => some ⟨n, true⟩
  | .seen n | .view n => some ⟨n, false⟩
  | _ => none

/-- The entries of an item whose entries can be changed. -/
def changeable? : Item → Option Access
  | .table n => some ⟨n, true⟩
  | .seen n => some ⟨n, false⟩
  | _ => none

end Item

/-- The tables and rows of a configuration; the first table is the configuration itself. -/
structure Draft where
  tables : Array TableEntries := #[]
  rows : Array (List Item) := #[]
  deriving Repr, Inhabited

/-- Why a reference leads nowhere. -/
inductive DraftFault
  /-- A dotted name that leads nowhere. -/
  | unresolved (name : String) (fault : ResolveFault)
  /-- A path that does not start with a name. -/
  | startless (path : String)
  /-- A path that goes on with something that is no name or index. -/
  | stepless (path rest : String)
  /-- A thing that has no parts of the kind that is asked for. -/
  | partless (reason : String)
  /-- An entry that is not there. -/
  | missing
  /-- An index behind the last item. -/
  | beyond
  /-- References that lead back to themselves. -/
  | endless
  deriving Repr, DecidableEq, Inhabited

/-- How a fault is reported. -/
def DraftFault.message : DraftFault → String
  | .unresolved name fault => fault.message name
  | .startless path => s!"Unable to convert {Text.quoted path}"
  | .stepless path rest => s!"Unable to convert {Text.quoted path} at {Text.quoted rest}"
  | .partless reason => reason
  | .missing | .beyond | .endless => ""

/-- Steps that take a configuration into use. -/
abbrev DraftM := ExceptT DraftFault (StateM Draft)

/-! ## References -/

/-- What a text refers to. -/
inductive Reference
  | outside (name : String)
  | path (path : List Char)

/-- The text in front of a line feed at its end; a text of several lines has none. -/
def oneLine? (cs : List Char) : Option (List Char) :=
  let line := if cs.getLast? = some '\n' then cs.dropLast else cs
  if line.contains '\n' then none else some line

/-- What a text refers to, if it is a reference. -/
def Reference.ofText? (s : String) : Option Reference := do
  let line ← oneLine? s.toList
  match Text.dropPrefix? "ext://".toList line with
  | some name => some (.outside (String.ofList name))
  | none => (Text.dropPrefix? "cfg://".toList line).map .path

/-- A step of a path. -/
inductive PathStep
  | name (word : List Char)
  | index (word : List Char)

/-- A word at the start of a text, without the blanks around it, and what follows. -/
def pathWord? (cs : List Char) : Option (List Char × List Char) :=
  let cs := cs.dropWhile Text.isBlank
  let word := cs.takeWhile Text.isWordChar
  if word.isEmpty then none else some (word, (cs.drop word.length).dropWhile Text.isBlank)

/-- A step at the start of a text, and what follows. -/
def pathStep? : List Char → Option (PathStep × List Char)
  | '.' :: cs => (pathWord? cs).map fun (word, rest) => (.name word, rest)
  | '[' :: cs =>
    match pathWord? cs with
    | some (word, ']' :: rest) => some (.index word, rest.dropWhile Text.isBlank)
    | _ => none
  | _ => none

namespace Draft

/-! ## Tables and rows -/

/-- The entries as they are given. -/
def plainEntries (es : Entries) : TableEntries :=
  es.map fun (k, v) => (k, .plain v)

/-- The draft of a configuration. -/
def ofEntries (es : Entries) : Draft :=
  { tables := #[plainEntries es] }

/-- The number of the table of the configuration itself. -/
def topNumber : Nat := 0

/-- The entries of a table. -/
def entries (d : Draft) (n : Nat) : TableEntries :=
  d.tables[n]?.getD []

/-- The items of a row. -/
def items (d : Draft) (n : Nat) : List Item :=
  d.rows[n]?.getD []

/-- The draft with other entries in a table. -/
def withEntries (d : Draft) (n : Nat) (es : TableEntries) : Draft :=
  { d with tables := d.tables.modify n fun _ => es }

/-- The entries with an item under a key. -/
def putIn (key : Value) (i : Item) (es : TableEntries) : TableEntries :=
  if es.any fun e => e.1.same key then es.map fun e => if e.1.same key then (e.1, i) else e
  else es ++ [(key, i)]

/-- The draft with an item under a key of a table. -/
def put (d : Draft) (n : Nat) (key : Value) (i : Item) : Draft :=
  d.withEntries n (putIn key i (d.entries n))

/-- The item under a key of a table. -/
def find? (d : Draft) (n : Nat) (key : Value) : Option Item :=
  ((d.entries n).find? fun e => e.1.same key).map (·.2)

/-- The draft without a key of a table. -/
def erase (d : Draft) (n : Nat) (key : Value) : Draft :=
  d.withEntries n ((d.entries n).filter fun e => !e.1.same key)

/-- Adds a table and gives its number. -/
def addTable (es : TableEntries) : DraftM Nat := do
  let n := (← get).tables.size
  modify fun d => { d with tables := d.tables.push es }
  pure n

/-- Adds a row. -/
def addRow (is : List Item) : DraftM Item := do
  let n := (← get).rows.size
  modify fun d => { d with rows := d.rows.push is }
  pure (.row n)

/-! ## Items as values -/

/-- An item as a value; `depth` bounds how deep tables and rows are followed. -/
def valueWithin (d : Draft) : Nat → Item → Value
  | _, .plain v => v
  | _, .tuple items => .tuple items
  | _, .outside o => o.asValue
  | _, .formatter _ => .foreign (.sealed "Formatter")
  | _, .filter _ => .foreign (.sealed "Filter")
  | _, .thing => .foreign (.sealed "object")
  | _, .handler _ => .foreign (.sealed "Handler")
  | 0, _ => .null
  | depth + 1, .table n | depth + 1, .seen n =>
    .map .plain ((d.entries n).map fun (k, i) => (k, valueWithin d depth i))
  | depth + 1, .view n => .map .view ((d.entries n).map fun (k, i) => (k, valueWithin d depth i))
  | depth + 1, .row n => .list ((d.items n).map (valueWithin d depth))

/-- An item as a value. -/
def value (d : Draft) (i : Item) : Value :=
  d.valueWithin (d.tables.size + d.rows.size) i

/-- The item counts as true. -/
def truthy (d : Draft) : Item → Bool
  | .plain v => v.truthy
  | .table n | .seen n | .view n => !(d.entries n).isEmpty
  | .row n => !(d.items n).isEmpty
  | .tuple items => !items.isEmpty
  | _ => true

/-- The items that an item yields: the items of a row, or the keys of a table, as they stand there. -/
def elements? (d : Draft) : Item → Option (List Item)
  | .plain v => v.elements?.map fun vs => vs.map .plain
  | .table n | .seen n | .view n => some ((d.entries n).map fun e => .plain e.1)
  | .row n => some (d.items n)
  | .tuple items => some (items.map .plain)
  | _ => none

/-! ## Parts -/

/-- How it is reported that a value has no parts with names. -/
def nameless : Value → String
  | .text _ | .textMember _ => "string indices must be integers, not 'str'"
  | .list _ => "list indices must be integers or slices, not str"
  | .tuple _ | .namedTuple _ => "tuple indices must be integers or slices, not str"
  | .bytes _ | .binary _ _ => "byte indices must be integers or slices, not str"
  | .foreign (.buffer name _) =>
    if name = changeableBytes then s!"{name} indices must be integers or slices, not str"
    else "memoryview: invalid slice key"
  | .foreign (.row name _) =>
    if name = "range" then "range indices must be integers or slices, not str"
    else "sequence index must be integer, not 'str'"
  | .foreign (.classItself name _ _) =>
    let short := ((Text.splitOn '.' name.toList).getLast?).getD []
    s!"type {Text.quoted (String.ofList short)} is not subscriptable"
  | v => s!"{Text.quoted v.kindName} object is not subscriptable"

/-- The values of a value whose parts have indices. -/
def indexed? : Value → Option (List Value)
  | .set _ _ | .map _ _ | .model _ | .foreign .producer => none
  | v => v.elements?

/-- An item as it is seen through a view: a mapping gets a table, so that it is known where it stands. -/
def look (i : Item) : DraftM Item := do
  match i with
  | .plain (.map .view es) => return .view (← addTable (plainEntries es))
  | .plain (.map _ es) => return .seen (← addTable (plainEntries es))
  | i => pure i

/-- The item under a key of a table, taken into use by `takeItem`; it stays in use. -/
def entryWith (takeItem : Item → DraftM Item) (n : Nat) (key : Value) : DraftM Item := do
  match (← get).find? n key with
  | none => throw .missing
  | some i =>
    let i ← takeItem i
    modify fun d => d.put n key i
    pure i

/-- An entry; it is taken into use by `takeItem` where its place asks for it. -/
def entryAt (takeItem : Item → DraftM Item) (a : Access) (key : Value) : DraftM Item :=
  entryWith (if a.taking then takeItem else look) a.number key

/-- An item of a row, taken into use by `takeItem`; it stays in use. -/
def rowItemWith (takeItem : Item → DraftM Item) (n index : Nat) : DraftM Item := do
  match ((← get).items n)[index]? with
  | none => throw .beyond
  | some i =>
    let i ← takeItem i
    modify fun d => { d with rows := d.rows.modify n fun is => is.set index i }
    pure i

/-- The part of an item that has a name. -/
def named (takeItem : Item → DraftM Item) (i : Item) (word : List Char) : DraftM Item := do
  match i.entries? with
  | some a => entryAt takeItem a (.text (String.ofList word))
  | none => throw (.partless (nameless ((← get).value i)))

/-- The part of an item at an index, `word` being how the index is written. -/
def indexed (takeItem : Item → DraftM Item) (i : Item) (word : List Char) (index : Nat) : DraftM Item :=
  match i with
  | .table n => entryAt takeItem ⟨n, true⟩ (.int index)
  | .seen n | .view n => entryAt takeItem ⟨n, false⟩ (.int index)
  | .row n => rowItemWith takeItem n index
  | .tuple items =>
    match items[index]? with
    | some v => takeItem (.plain v)
    | none => throw .beyond
  | .plain v =>
    match indexed? v with
    | some vs =>
      match vs[index]? with
      | some v => look (.plain v)
      | none => throw .beyond
    | none => named takeItem i word
  | i => named takeItem i word

/-- The part of an item to which a step leads. -/
def step (takeItem : Item → DraftM Item) (i : Item) : PathStep → DraftM Item
  | .name word => named takeItem i word
  | .index word =>
    if word.all fun c => (Text.decimalDigit? c).isSome then
      indexed takeItem i word ((Text.digits? word).getD 0)
    else named takeItem i word

/-- The item to which the rest of a path leads; `fuel` is at least the length of the rest. -/
def followFrom (takeItem : Item → DraftM Item) (path : List Char) : Nat → List Char → Item → DraftM Item
  | _, [], i => pure i
  | 0, _, i => pure i
  | fuel + 1, rest, i =>
    match pathStep? rest with
    | none => throw (.stepless (String.ofList path) (String.ofList rest))
    | some (s, rest) => do followFrom takeItem path fuel rest (← step takeItem i s)

/-- The item to which a path leads. -/
def follow (takeItem : Item → DraftM Item) (path : List Char) : DraftM Item :=
  match pathWord? path with
  | none => throw (.startless (String.ofList path))
  | some (word, rest) => do
    followFrom takeItem path rest.length rest
      (← entryWith takeItem topNumber (.text (String.ofList word)))

/-! ## Taking into use -/

/-- An item taken into use; at most `depth` references are followed one inside the other. A view stays one,
and a mapping seen through a view is copied. -/
def takeWithin : Nat → Item → DraftM Item
  | 0, _ => throw .endless
  | depth + 1, i =>
    match i with
    | .plain (.map .view _) => look i
    | .plain (.map _ es) => return .table (← addTable (plainEntries es))
    | .seen n => return .table (← addTable ((← get).entries n))
    | .plain (.list vs) => addRow (vs.map .plain)
    | .plain (.tuple vs) => pure (.tuple vs)
    | .plain v =>
      match v.text?.bind Reference.ofText? with
      | none => pure i
      | some (.path path) => follow (takeWithin depth) path
      | some (.outside name) =>
        match Outside.resolve name with
        | .ok (.value v) => pure (.plain v)
        | .ok o => pure (.outside o)
        | .error fault => throw (.unresolved name fault)
    | i => pure i

/-- The greatest number of references that are followed one inside the other. -/
def referenceLimit : Nat := 200

/-- An item taken into use. -/
def take (i : Item) : DraftM Item :=
  takeWithin referenceLimit i

/-- An entry. -/
def entry (a : Access) (key : Value) : DraftM Item :=
  entryAt take a key

/-- An entry, or what stands in for it. -/
def entryOr (a : Access) (key : String) (absent : Item) : DraftM Item := do
  if ((← get).find? a.number (.text key)).isSome then entry a (.text key) else pure absent

/-- Takes an entry out of its table; something may stand in for it. -/
def pop (a : Access) (key : String) (absent : Item) : DraftM Item := do
  match (← get).find? a.number (.text key) with
  | none => pure absent
  | some i =>
    modify fun d => d.erase a.number (.text key)
    if a.taking then take i else look i

/-- The entries of the configuration itself. -/
def top : Access := ⟨topNumber, true⟩

/-- A section of the configuration; an empty table stands in for one that is missing. -/
def sectionOf (key : String) : DraftM Item := do
  match (← get).find? top.number (.text key) with
  | some _ => entry top (.text key)
  | none =>
    let n ← addTable []
    modify fun d => d.put top.number (.text key) (.table n)
    pure (.table n)

/-- The entries that were given, after the configuration has been in use. What is seen through a view may
have changed. -/
def given (d : Draft) (es : Entries) : Entries :=
  es.map fun (key, v) =>
    match v, d.find? top.number key with
    | .map .view _, some (.view n) => (key, d.value (.view n))
    | v, _ => (key, v)

end Draft

end FileDepot
