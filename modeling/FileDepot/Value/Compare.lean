import FileDepot.Value.Basic

/-!
# Comparing values

Contents:

* `Number` — the numeric value of a value, compared exactly whatever its kind;
* `Value.same` — equality across kinds: numbers by value, mappings and sets regardless of order;
* `Value.disturbs` — comparing the values meets a decimal that refuses to be compared;
* `Value.hashable` — the value can be a key of a mapping or a member of a set;
* `Value.precedes` — the order of values that have one;
* `Entries.lookup?`, `Entries.put`, `Entries.ofPairs` — mappings as lists of entries with distinct keys;
* `Value.setOf` — a set with its members in ascending order.
-/

namespace FileDepot

/-! ## Numbers -/

/-- A numeric value: a quotient with a positive denominator, or no finite number. -/
inductive Number
  | nan
  | infinite (negative : Bool)
  | exact (numerator : Int) (denominator : Nat)
  deriving Repr, DecidableEq

/-- The order of two numbers, unless one is no number. -/
def Number.compare? : Number → Number → Option Ordering
  | .nan, _ => none
  | _, .nan => none
  | .infinite x, .infinite y => some (Ord.compare (!x) (!y))
  | .infinite x, .exact _ _ => some (if x then .lt else .gt)
  | .exact _ _, .infinite y => some (if y then .gt else .lt)
  | .exact n d, .exact m e => some (Ord.compare (n * e) (m * d))

/-- The number that a floating-point number stands for. -/
def Number.ofFloat : Binary64 → Number
  | .nan => .nan
  | .infinite negative => .infinite negative
  | x =>
    match x.ratio? with
    | some (n, d) => .exact n d
    | none => .nan

/-- The number that a decimal stands for. -/
def Number.ofDecimal : Decimal → Number
  | .nan _ _ _ => .nan
  | .infinite negative => .infinite negative
  | x =>
    match x.ratio? with
    | some (n, d) => .exact n d
    | none => .nan

/-- The bytes of a run of bytes. -/
def Foreign.content? : Foreign → Option Bytes
  | .buffer _ bs => some bs
  | _ => none

/-- The values are equal; one that has an identity only is equal to no value handed over. -/
def Foreign.same : Foreign → Foreign → Bool
  | .buffer _ x, .buffer _ y => x == y
  | .bare _, _ => false
  | .producer, _ => false
  | f, g => f == g && f != .sealed "object"

namespace Value

/-- The numeric value of a value. -/
def number? : Value → Option Number
  | .bool b => some (.exact (if b then 1 else 0) 1)
  | .int n => some (.exact n 1)
  | .intMember n => some (.exact n 1)
  | .float x => some (.ofFloat x)
  | .decimal d => some (.ofDecimal d)
  | _ => none

/-- Both values are numbers, and equal ones. -/
def sameNumber (a b : Value) : Bool :=
  match a.number?, b.number? with
  | some x, some y => x.compare? y == some .eq
  | _, _ => false

/-! ## Equality -/

mutual

/-- The values are equal. Objects of a caller's own are never equal to anything: they have an identity
that a value handed over does not show. -/
def same : Value → Value → Bool
  | .null, b => b.isNull
  | .bool x, b => sameNumber (.bool x) b
  | .int n, b => sameNumber (.int n) b
  | .float x, b => sameNumber (.float x) b
  | .decimal d, b => sameNumber (.decimal d) b
  | .intMember n, b => sameNumber (.intMember n) b
  | .text s, b => b.text? == some s
  | .textMember s, b => b.text? == some s
  | .bytes x, b =>
    match b with
    | .bytes y => x == y
    | .foreign (.buffer _ y) => x == y
    | _ => false
  | .list xs, b =>
    match b with
    | .list ys => sameItems xs ys
    | _ => false
  | .tuple xs, b =>
    match b.tupleItems? with
    | some ys => sameItems xs ys
    | none => false
  | .namedTuple fs, b =>
    match b.tupleItems? with
    | some ys => sameFields fs ys
    | none => false
  | .set _ xs, b =>
    match b with
    | .set _ ys => xs.length == ys.length && allAmong xs ys
    | _ => false
  | .map kind es, b =>
    match b with
    | .map kind' es' =>
      es.length == es'.length &&
        (if kind == .ordered && kind' == .ordered then sameInOrder es es' else allEntries es es')
    | _ => false
  | .objectId i, b =>
    match b with
    | .objectId j => i == j
    | _ => false
  | .uuid u, b =>
    match b with
    | .uuid v => u == v
    | _ => false
  | .date d, b =>
    match b with
    | .date e => d == e
    | _ => false
  | .dateTime t, b =>
    match b with
    | .dateTime u => t.same u
    | _ => false
  | .storedDecimal d, b =>
    match b with
    | .storedDecimal e => d == e
    | _ => false
  | .binary x k, b =>
    match b with
    | .binary y l => x == y && k == l
    | _ => false
  | .pattern p, b =>
    match b with
    | .pattern q => p == q
    | _ => false
  | .storedRegex r, b =>
    match b with
    | .storedRegex q => r == q
    | _ => false
  | .path p, b =>
    match b with
    | .path q => p.same q
    | _ => false
  | .foreign f, b =>
    match b with
    | .foreign g => f.same g
    | .bytes y => f.content? == some y
    | _ => false
  | .member _, _ => false
  | .model _, _ => false
  | .record _, _ => false
  | .object _, _ => false
  | .exporter _, _ => false
termination_by structural v => v

/-- The items are equal in turn. -/
def sameItems : List Value → List Value → Bool
  | [], ys => ys.isEmpty
  | x :: xs, ys =>
    match ys with
    | y :: ys => same x y && sameItems xs ys
    | [] => false
termination_by structural xs => xs

/-- The fields hold the items in turn. -/
def sameFields : List (String × Value) → List Value → Bool
  | [], ys => ys.isEmpty
  | (_, x) :: xs, ys =>
    match ys with
    | y :: ys => same x y && sameFields xs ys
    | [] => false
termination_by structural xs => xs

/-- Every value of the first list is equal to some value of the second. -/
def allAmong : List Value → List Value → Bool
  | [], _ => true
  | x :: xs, ys => ys.any (fun y => same x y) && allAmong xs ys
termination_by structural xs => xs

/-- Every entry of the first list has an equal one in the second. -/
def allEntries : List (Value × Value) → List (Value × Value) → Bool
  | [], _ => true
  | (k, v) :: es, es' => es'.any (fun e => same k e.1 && same v e.2) && allEntries es es'
termination_by structural es => es

/-- The entries are equal in turn. -/
def sameInOrder : List (Value × Value) → List (Value × Value) → Bool
  | [], es' => es'.isEmpty
  | (k, v) :: es, es' =>
    match es' with
    | (k', v') :: es' => same k k' && same v v' && sameInOrder es es'
    | [] => false
termination_by structural es => es

end

/-- The value is among the given ones. -/
def among (v : Value) (vs : List Value) : Bool :=
  vs.any fun w => same w v

/-! ## Decimals that refuse -/

/-- The value is a decimal that refuses to be compared with a number. -/
def isRefusing : Value → Bool
  | .decimal (.nan _ signaling _) => signaling
  | _ => false

/-- The values are numbers, and one of them refuses to be compared. -/
def numbersDisturb (a b : Value) : Bool :=
  a.number?.isSome && b.number?.isSome && (a.isRefusing || b.isRefusing)

mutual

/-- Comparing the values for equality meets a decimal that refuses to be compared, before any parts
that differ. -/
def disturbs : Value → Value → Bool
  | .list xs, b =>
    match b with
    | .list ys => xs.length == ys.length && itemsDisturb xs ys
    | _ => false
  | .tuple xs, b =>
    match b.tupleItems? with
    | some ys => itemsDisturb xs ys
    | none => false
  | .namedTuple fs, b =>
    match b.tupleItems? with
    | some ys => fieldsDisturb fs ys
    | none => false
  | .map _ es, b =>
    match b with
    | .map _ es' => es.length == es'.length && entriesDisturb es es'
    | _ => false
  | a, b => numbersDisturb a b
termination_by structural v => v

/-- Comparing the items in turn meets a decimal that refuses. -/
def itemsDisturb : List Value → List Value → Bool
  | [], _ => false
  | x :: xs, ys =>
    match ys with
    | y :: ys => disturbs x y || (same x y && itemsDisturb xs ys)
    | [] => false
termination_by structural xs => xs

/-- Comparing the fields with the items in turn meets a decimal that refuses. -/
def fieldsDisturb : List (String × Value) → List Value → Bool
  | [], _ => false
  | (_, x) :: xs, ys =>
    match ys with
    | y :: ys => disturbs x y || (same x y && fieldsDisturb xs ys)
    | [] => false
termination_by structural xs => xs

/-- Comparing the entries with those of the same keys meets a decimal that refuses. -/
def entriesDisturb : List (Value × Value) → List (Value × Value) → Bool
  | [], _ => false
  | (k, v) :: es, es' =>
    match es'.find? fun e => same k e.1 with
    | some (_, w) => disturbs v w || (same v w && entriesDisturb es es')
    | none => false
termination_by structural es => es

end

/-! ## Keys -/

mutual

/-- The value can be a key of a mapping. -/
def hashable : Value → Bool
  | .list _ => false
  | .set fixed _ => fixed
  | .map _ _ => false
  | .tuple xs => allHashable xs
  | .namedTuple fs => fieldsHashable fs
  | .decimal (.nan _ signaling _) => !signaling
  | .storedDecimal _ => false
  | .storedRegex _ => false
  | .model _ => false
  | .record _ => false
  | .foreign (.buffer name _) => name != "bytearray"
  | .foreign (.row name _) => name != "deque"
  | _ => true

/-- Every value can be a key. -/
def allHashable : List Value → Bool
  | [] => true
  | v :: vs => hashable v && allHashable vs

/-- Every field holds a value that can be a key. -/
def fieldsHashable : List (String × Value) → Bool
  | [] => true
  | (_, v) :: fs => hashable v && fieldsHashable fs

end

/-! ## Order -/

/-- Why two values have no order. -/
inductive Unordered
  /-- There is none between their kinds. -/
  | kinds
  /-- One of them is a decimal that is no number. -/
  | decimal
  deriving Repr, DecidableEq

/-- The value is a decimal. -/
def isDecimal : Value → Bool
  | .decimal _ => true
  | _ => false

/-- The order of a number and another value. -/
def numberPrecedes (a b : Value) : Except Unordered Bool :=
  match a.number?, b.number? with
  | some x, some y =>
    match x.compare? y with
    | some order => .ok (order == .lt)
    | none => if a.isDecimal || b.isDecimal then .error .decimal else .ok false
  | _, _ => .error .kinds

/-- The order of a text and another value. -/
def textPrecedes (s : String) (b : Value) : Except Unordered Bool :=
  match b.text? with
  | some t => .ok (s < t)
  | none => .error .kinds

/-- The order of bytes and another value. -/
def bytesPrecede (x : Bytes) (b : Value) : Except Unordered Bool :=
  match b with
  | .bytes y => .ok (x < y)
  | .binary y _ => .ok (x < y)
  | .foreign (.buffer "bytearray" y) => .ok (x < y)
  | _ => .error .kinds

mutual

/-- The first value comes before the second. Between numbers one of which is none, neither comes
first. -/
def precedes : Value → Value → Except Unordered Bool
  | .bool x, b => numberPrecedes (.bool x) b
  | .int n, b => numberPrecedes (.int n) b
  | .float x, b => numberPrecedes (.float x) b
  | .decimal d, b => numberPrecedes (.decimal d) b
  | .intMember n, b => numberPrecedes (.intMember n) b
  | .text s, b => textPrecedes s b
  | .textMember s, b => textPrecedes s b
  | .bytes x, b => bytesPrecede x b
  | .binary x _, b => bytesPrecede x b
  | .foreign (.buffer "bytearray" x), b => bytesPrecede x b
  | .list xs, b =>
    match b with
    | .list ys => itemsPrecede xs ys
    | _ => .error .kinds
  | .tuple xs, b =>
    match b.tupleItems? with
    | some ys => itemsPrecede xs ys
    | none => .error .kinds
  | .namedTuple fs, b =>
    match b.tupleItems? with
    | some ys => fieldsPrecede fs ys
    | none => .error .kinds
  | .set _ xs, b =>
    match b with
    | .set _ ys => .ok (xs.length < ys.length && allAmong xs ys)
    | _ => .error .kinds
  | .objectId i, b =>
    match b with
    | .objectId j => .ok (i.value < j.value)
    | _ => .error .kinds
  | .uuid u, b =>
    match b with
    | .uuid v => .ok (u.value < v.value)
    | _ => .error .kinds
  | .date d, b =>
    match b with
    | .date e => .ok (d.dayNumber < e.dayNumber)
    | _ => .error .kinds
  | .dateTime t, b =>
    match b with
    | .dateTime u =>
      match t.instant?, u.instant? with
      | some x, some y => .ok (x < y)
      | none, none => .ok (t.shown < u.shown)
      | _, _ => .error .kinds
    | _ => .error .kinds
  | .path p, b =>
    match b with
    | .path q => if p.style = q.style then .ok (p.precedes q) else .error .kinds
    | _ => .error .kinds
  | _, _ => .error .kinds
termination_by structural v => v

/-- The first items that differ decide; a list comes before a longer one that continues it. -/
def itemsPrecede : List Value → List Value → Except Unordered Bool
  | [], ys => .ok (!ys.isEmpty)
  | x :: xs, ys =>
    match ys with
    | [] => .ok false
    | y :: ys =>
      if disturbs x y then .error .decimal
      else if same x y then itemsPrecede xs ys
      else precedes x y
termination_by structural xs => xs

/-- The first places that differ decide. -/
def fieldsPrecede : List (String × Value) → List Value → Except Unordered Bool
  | [], ys => .ok (!ys.isEmpty)
  | (_, x) :: xs, ys =>
    match ys with
    | [] => .ok false
    | y :: ys =>
      if disturbs x y then .error .decimal
      else if same x y then fieldsPrecede xs ys
      else precedes x y
termination_by structural xs => xs

end

end Value

/-! ## Mappings and sets -/

namespace Entries

/-- The value of a key. -/
def lookup? (key : Value) : Entries → Option Value
  | [] => none
  | (k, v) :: es => if k.same key then some v else lookup? key es

/-- The entries with a key set: a key that is there keeps its place, a new one comes last. -/
def put (key value : Value) : Entries → Entries
  | [] => [(key, value)]
  | (k, v) :: es => if k.same key then (k, value) :: es else (k, v) :: put key value es

/-- The entries of a list of pairs in which later values overwrite earlier ones. -/
def ofPairs (pairs : Entries) : Entries :=
  pairs.foldl (fun es (k, v) => put k v es) []

/-- The entries with those of a second mapping set in turn. -/
def update (es es' : Entries) : Entries :=
  es'.foldl (fun es (k, v) => put k v es) es

/-- The value of a key that is a text. -/
def get? (key : String) (es : Entries) : Option Value :=
  lookup? (.text key) es

end Entries

namespace Value

/-- A mapping of pairs in which later values overwrite earlier ones. -/
def mapOf (kind : MapKind) (pairs : Entries) : Value :=
  .map kind (Entries.ofPairs pairs)

/-- The values without those that are equal to an earlier one. -/
def distinct (vs : List Value) : List Value :=
  (vs.foldl (fun kept v => if among v kept then kept else v :: kept) []).reverse

/-- A value put in front of the first one that it precedes. -/
def insertAscending (v : Value) : List Value → List Value
  | [] => [v]
  | w :: ws =>
    match precedes v w with
    | .ok true => v :: w :: ws
    | _ => w :: insertAscending v ws

/-- A set of the given members, each once, in ascending order. -/
def setOf (fixed : Bool) (members : List Value) : Value :=
  .set fixed ((distinct members).foldl (fun vs v => insertAscending v vs) [])

end Value

end FileDepot
