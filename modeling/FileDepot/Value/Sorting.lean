import FileDepot.Value.Compare

/-!
# Sorting

Contents:

* `Sorting.sortWith` — a stable sort by halving, which fails on values without an order.
-/

namespace FileDepot.Sorting

/-! ## A stable sort -/

/-- An item put into items in order, behind those that do not come after it. The place is found by
halving, so that few comparisons are made; `fuel` is at least the number of the items. -/
def insertSorted {α ε : Type} (before : α → α → Except ε Bool) (x : α) :
    Nat → List α → Except ε (List α)
  | 0, ys => .ok (x :: ys)
  | fuel + 1, ys =>
    match ys.drop (ys.length / 2) with
    | [] => .ok [x]
    | y :: behind => do
      let front := ys.take (ys.length / 2)
      if ← before x y then
        let front ← insertSorted before x fuel front
        .ok (front ++ y :: behind)
      else
        let behind ← insertSorted before x fuel behind
        .ok (front ++ y :: behind)

/-- The items that stand in ascending order behind `last`, and the rest. -/
def ascending {α ε : Type} (before : α → α → Except ε Bool) (last : α) :
    List α → Except ε (List α × List α)
  | [] => .ok ([], [])
  | x :: xs => do
    if ← before x last then .ok ([], x :: xs)
    else
      let (run, rest) ← ascending before x xs
      .ok (x :: run, rest)

/-- The items that stand in strictly descending order behind `last`, put in front of `done` one by one,
and the rest. -/
def descending {α ε : Type} (before : α → α → Except ε Bool) (last : α) (done : List α) :
    List α → Except ε (List α × List α)
  | [] => .ok (done, [])
  | x :: xs => do
    if ← before x last then descending before x (x :: done) xs else .ok (done, x :: xs)

/-- The items in order with which a list starts, turned round if they descend, and the rest. -/
def leadingRun {α ε : Type} (before : α → α → Except ε Bool) :
    List α → Except ε (List α × List α)
  | x :: y :: rest => do
    if ← before y x then descending before y [y, x] rest
    else
      let (run, rest) ← ascending before y rest
      .ok (x :: y :: run, rest)
  | xs => .ok (xs, [])

/-- The items in order; those of which neither comes before the other keep their places. -/
def sortWith {α ε : Type} (before : α → α → Except ε Bool) (xs : List α) :
    Except ε (List α) := do
  let (run, rest) ← leadingRun before xs
  rest.foldlM (fun sorted x => insertSorted before x sorted.length sorted) run

end FileDepot.Sorting
