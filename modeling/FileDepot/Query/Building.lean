import FileDepot.Query.Basic

/-!
# Building criteria and queries

A criterion, and a query, is built by one call after another. A call changes it as it goes along, and what it has
changed before it fails stays changed.

Contents:

* `Answering` — how the arguments of a call answer what they are asked;
* `CriterionM` — a step on a criterion that is being built;
* `Criterion.Call` — the calls on a criterion;
* `Criterion.Call.stepWith`, `Criterion.Call.step` — what such a call does, change by change, with `Call.made` for
  what it makes of a criterion if it succeeds;
* `Query.Call`, `Query.Call.step` — the calls on a query, and what they do.
-/

namespace FileDepot

/-- How values answer whether they count as true, and what they yield one by one. An object answers as it likes, or
fails. -/
structure Answering where
  truth : Value → Except Failure Bool
  items : Value → Except Failure (List Value)

/-- Values that answer for themselves. -/
def Answering.plain : Answering where
  truth v := .ok v.truthy
  items := Value.elements

/-- A step on a criterion that is being built. -/
abbrev CriterionM := ExceptT Failure (StateM Criterion)

namespace Criterion

/-- One change of the criterion, unless it is refused. -/
def change (f : Criterion → Except Failure Criterion) : CriterionM Unit := do
  set (← liftM (f (← get)))

/-- A call on a criterion. -/
inductive Call
  | equalTo (v : Value)
  | matching (pattern options : Value)
  | oneOf (values : Value)
  | unequal (v : Value)
  | present (flag : Value)
  deriving Repr, Inhabited

namespace Call

/-- What the call does. An expression is entered before its options are looked at, unless it is a compiled
pattern, which is refused with options. -/
def stepWith (answers : Answering) : Call → CriterionM Unit
  | .equalTo v => change (·.equalTo v)
  | .matching (.pattern p) options => do
    if ← liftM (answers.truth options) then
      throw (.invalid "options cannot be combined with a compiled pattern")
    change (·.withOperator "$regex" (.pattern p))
  | .matching pattern options => do
    change (·.withOperator "$regex" pattern)
    if ← liftM (answers.truth options) then change (·.withOperator "$options" options)
  | .oneOf values => do
    let vs ← liftM (answers.items values)
    change (·.oneOf vs)
  | .unequal v => change (·.unequal v)
  | .present flag => change (·.present flag)

/-- What the call does with values that answer for themselves. -/
def step : Call → CriterionM Unit :=
  stepWith .plain

/-- What the call makes of a criterion. -/
def made (c : Criterion) (call : Call) : Except Failure Criterion :=
  match call.step.run c with
  | (.ok (), c) => .ok c
  | (.error e, _) => .error e

end Call

end Criterion

namespace Query

/-- A call on a query. -/
inductive Call
  | add (part : QueryPart)
  | sortBy (key direction : Value)
  | withSkip (n : Value)
  | withLimit (n : Value)
  deriving Repr, Inhabited

namespace Call

/-- The query that a change makes, or the query as it is and why the change is refused. -/
def settle (q : Query) : Except Failure Query → Query × Option Failure
  | .ok q' => (q', none)
  | .error e => (q, some e)

/-- The query behind the call, and why the call is refused if it is. -/
def step (q : Query) : Call → Query × Option Failure
  | .add part => q.addPart part
  | .sortBy key direction => settle q (q.sortBy key direction)
  | .withSkip n => settle q (q.withSkip n)
  | .withLimit n => settle q (q.withLimit n)

end Call

end Query

end FileDepot
