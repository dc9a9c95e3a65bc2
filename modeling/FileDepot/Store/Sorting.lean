import FileDepot.Store.Matching
import FileDepot.Value.Sorting

/-!
# Order and paging

Contents:

* `sortByKey` — by one field;
* `sortRecords` — by several keys, the first of which decides;
* `skipRecords`, `limitRecords` — paging.
-/

namespace FileDepot.Sorting

/-! ## Records -/

/-- The first value comes before the second. -/
def comesBefore (a b : Value) : Except Failure Bool :=
  (a.precedes b).mapError Value.Unordered.failure

/-- The items ordered by one field of their records. A descending order is the ascending one of the items
turned round, turned round again, so that items with equal fields keep their places. -/
def sortByKey {α : Type} (record : α → Value) (key : Value) (direction : Int) (xs : List α) :
    Except Failure (List α) := do
  let keyed ← xs.mapM fun x => do .ok (← Filter.fieldOf (record x) key, x)
  let before (a b : Value × α) := comesBefore a.1 b.1
  if direction < 0 then
    let sorted ← sortWith before keyed.reverse
    .ok (sorted.reverse.map (·.2))
  else
    let sorted ← sortWith before keyed
    .ok (sorted.map (·.2))

/-- The items ordered by several fields, of which an earlier one outweighs a later one. -/
def sortRecords {α : Type} (record : α → Value) :
    List (Value × Int) → List α → Except Failure (List α)
  | [], xs => .ok xs
  | (key, direction) :: keys, xs => do
    let xs ← sortRecords record keys xs
    sortByKey record key direction xs

/-- A number of items. -/
def countOf (v : Value) : Except Failure Nat :=
  match v.whole? with
  | some n => .ok n.toNat
  | none => .error .wrongKind

/-- The items behind the first ones; a number that counts as false skips none. -/
def skipRecords {α : Type} (n : Value) (xs : List α) : Except Failure (List α) := do
  if n.truthy then .ok (xs.drop (← countOf n)) else .ok xs

/-- The first items; a number that counts as false sets no limit. -/
def limitRecords {α : Type} (n : Value) (xs : List α) : Except Failure (List α) := do
  if n.truthy then .ok (xs.take (← countOf n)) else .ok xs

end FileDepot.Sorting
