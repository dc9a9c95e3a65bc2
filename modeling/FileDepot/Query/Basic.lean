import FileDepot.Query.Criterion

/-!
# Queries

A query bundles criteria, a sort order and paging for a lookup.

Contents:

* `Query` — the parts of a query;
* `Query.addEntries`, `Query.addPart`, `Query.ofParts` — criteria, each field at most once;
* `Query.sortBy`, `Query.withSkip`, `Query.withLimit` — order and paging;
* `Query.ofDocument` — a query from a filter and a sort specification;
* `Query.sortObject` — the sort keys, each once.
-/

namespace FileDepot

/-- Filter, sort order and paging of a lookup. -/
structure Query where
  criteria : Entries := []
  sort : List (Value × Value) := []
  skip : Value := .int 0
  limit : Value := .int 0
  deriving Repr, Inhabited

/-- What may be added to a query: a criterion, or a filter as a value. -/
inductive QueryPart
  | criterion (c : Criterion)
  | filter (v : Value)
  deriving Repr, Inhabited

namespace Query

/-! ## Criteria -/

/-- The query has a criterion for a field. -/
def constrains (q : Query) (key : Value) : Bool :=
  q.criteria.any fun (k, _) => k.same key

/-- Adds entries one by one up to the first field that has a criterion already; the entries in front
of it stay added. -/
def addEntries (q : Query) : Entries → Query × Option Failure
  | [] => (q, none)
  | (k, v) :: es =>
    if q.constrains k then
      (q, some (.invalid s!"Query already contains criteria for '{k.shown}'"))
    else addEntries { q with criteria := q.criteria ++ [(k, v)] } es

/-- The entries that a part adds. -/
def QueryPart.entries : QueryPart → Except Failure Entries
  | .criterion c => c.document
  | .filter v => v.pairs

/-- Adds a part. -/
def addPart (q : Query) (part : QueryPart) : Query × Option Failure :=
  match QueryPart.entries part with
  | .ok es => q.addEntries es
  | .error e => (q, some e)

/-- A query of some parts. -/
def ofParts (parts : List QueryPart) : Except Failure Query :=
  parts.foldlM
    (fun q part =>
      match addPart q part with
      | (q, none) => .ok q
      | (_, some e) => .error e)
    {}

/-! ## Order and paging -/

/-- The value is one of the two directions, 1 for ascending and -1 for descending. -/
def isDirection (v : Value) : Except Failure Bool := do
  if ← (Value.int 1).equals v then .ok true else (Value.int (-1)).equals v

/-- Adds a sort key. -/
def sortBy (q : Query) (key direction : Value) : Except Failure Query := do
  if ← isDirection direction then .ok { q with sort := q.sort ++ [(key, direction)] }
  else .error (.invalid s!"Sort direction must be 1 or -1, got {direction.written}")

/-- Sets how many files are passed over. -/
def withSkip (q : Query) (n : Value) : Except Failure Query := do
  if ← n.isNegative then .error (.invalid "skip must not be negative")
  else .ok { q with skip := n }

/-- Sets how many files are listed at most; zero stands for no limit. -/
def withLimit (q : Query) (n : Value) : Except Failure Query := do
  if ← n.isNegative then .error (.invalid "limit must not be negative")
  else .ok { q with limit := n }

/-! ## Documents -/

/-- The keys and directions of a sort specification, each of which is a mapping's entry or a pair. -/
def sortPairs (sort : Value) : Except Failure (List Value) :=
  match sort.entriesOf? with
  | some es => .ok (es.map fun (k, v) => .tuple [k, v])
  | none => sort.elements

/-- Adds the sort keys of a specification. -/
def addSortPairs (q : Query) (sort : List Value) : Except Failure Query :=
  sort.foldlM
    (fun q item => do
      let (key, direction) ← item.twoParts
      q.sortBy key direction)
    q

/-- A query of a filter and a sort specification; what counts as false adds nothing. -/
def ofDocument (criteria sort : Value) : Except Failure Query := do
  let q ← ofParts (if criteria.truthy then [.filter criteria] else [])
  if sort.truthy then q.addSortPairs (← sortPairs sort) else .ok q

/-- The sort keys, each once with its last direction. -/
def sortObject (q : Query) : Except Failure Entries :=
  if q.sort.all fun (k, _) => k.hashable then .ok (Entries.ofPairs q.sort) else .error .wrongKind

/-- How a query is shown. -/
def describe (q : Query) : String :=
  let criteria := Value.written (.document q.criteria)
  let sort := Value.written (.list (q.sort.map fun (k, d) => .tuple [k, d]))
  s!"Query(criteria={criteria}, sort={sort}, skip={q.skip.shown}, limit={q.limit.shown})"

end Query

end FileDepot
