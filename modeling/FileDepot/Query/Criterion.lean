import FileDepot.Value.Access

/-!
# Criteria

A criterion is a condition on one field: a value that it equals, or operators that it satisfies.

Contents:

* `Condition`, `Criterion` — the conditions;
* `Criterion.on` and the fields with a name of their own — criteria without a condition yet;
* `Criterion.equalTo`, `Criterion.withOperator`, and `Criterion.oneOf`, `Criterion.unequal`, `Criterion.present` by it
  — the conditions added one by one;
* `Criterion.document` — the criterion as a filter.

A criterion never has both a value and operators (`Criterion.equalTo_operators`,
`Criterion.withOperator_equals`).
-/

namespace FileDepot

/-- A condition on a field. -/
inductive Condition
  | equals (v : Value)
  | operators (ops : List (String × Value))
  deriving Repr, Inhabited

/-- A condition on the field `key`. -/
structure Criterion where
  key : Value
  condition : Condition := .operators []
  deriving Repr, Inhabited

namespace Criterion

/-! ## Fields -/

/-- A criterion on a field, which has a name. -/
def on (key : Value) : Except Failure Criterion :=
  if !key.truthy then .error (.invalid "Criteria key must not be empty")
  else .ok { key := key }

/-- A criterion on the name of a file. -/
def onFilename : Criterion :=
  { key := .text "filename" }

/-- A criterion on the content type that the metadata document records. -/
def onContentType : Criterion :=
  { key := .text "metadata.type" }

/-- A criterion on the metadata document, or on one of its keys. -/
def onMetadata (key : Value) : Criterion :=
  if key.truthy then { key := .text ("metadata." ++ key.shown) } else { key := .text "metadata" }

/-! ## Conditions -/

/-- The entries with a name set; a name that is there keeps its place. -/
def setOperator (name : String) (v : Value) : List (String × Value) → List (String × Value)
  | [] => [(name, v)]
  | (n, w) :: ops => if n = name then (n, v) :: ops else (n, w) :: setOperator name v ops

/-- The field equals a value. -/
def equalTo (c : Criterion) (v : Value) : Except Failure Criterion :=
  match c.condition with
  | .operators (_ :: _) =>
    .error (.invalid s!"Cannot combine equality with operators on '{c.key.shown}'")
  | _ => .ok { c with condition := .equals v }

/-- The field satisfies an operator; a second operator of the same name replaces the first. -/
def withOperator (c : Criterion) (name : String) (v : Value) : Except Failure Criterion :=
  match c.condition with
  | .equals _ => .error (.invalid s!"Cannot combine operators with equality on '{c.key.shown}'")
  | .operators ops => .ok { c with condition := .operators (setOperator name v ops) }

/-- The field is one of the given values. -/
def oneOf (c : Criterion) (vs : List Value) : Except Failure Criterion :=
  c.withOperator "$in" (.list vs)

/-- The field differs from a value. -/
def unequal (c : Criterion) (v : Value) : Except Failure Criterion :=
  c.withOperator "$ne" v

/-- The field is there, or is not, as the flag says. -/
def present (c : Criterion) (flag : Value) : Except Failure Criterion :=
  c.withOperator "$exists" flag

/-! ## Documents -/

/-- The operators as the entries of a mapping. -/
def operatorEntries (ops : List (String × Value)) : Entries :=
  ops.map fun (name, v) => (.text name, v)

/-- What a filter holds for the field of the criterion. -/
def Condition.operand : Condition → Value
  | .equals v => v
  | .operators ops => .document (operatorEntries ops)

/-- The criterion as a filter, unless its field is named by a value that cannot be a key. -/
def document (c : Criterion) : Except Failure Entries :=
  if c.key.hashable then .ok [(c.key, Condition.operand c.condition)] else .error .wrongKind

/-- How a criterion is shown. -/
def describe (c : Criterion) : Except Failure String := do
  .ok s!"Criteria({Value.written (.document (← c.document))})"

/-! ## Values and operators exclude each other -/

theorem equalTo_operators (c : Criterion) (op : String × Value) (ops : List (String × Value))
    (v : Value) (h : c.condition = .operators (op :: ops)) : ∃ e, c.equalTo v = .error e := by
  simp [equalTo, h]

theorem withOperator_equals (c : Criterion) (w v : Value) (name : String)
    (h : c.condition = .equals w) : ∃ e, c.withOperator name v = .error e := by
  simp [withOperator, h]

end Criterion

end FileDepot
