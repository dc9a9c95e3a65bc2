import FileDepot.Proofs.Answers
import FileDepot.Proofs.Runs
import FileDepot.Proofs.Steps
import FileDepot.Proofs.Value.Entries
import FileDepot.Query.Building

/-!
# What calls build

A criterion that is being built has either a value or operators. Which of the two it has is settled by the first
call that gives or enters anything, and from then on calls of the other kind fail. A call that fails changes nothing,
unless it has entered an expression and then cannot tell whether there are options for it.

Contents:

* `lookup_setOperator`, `names_setOperator` — one operator set;
* `EnteredAs`, `EnteredAs.setOperators` — operators set one after another;
* `AnsweredCall` — a call together with the answers of its arguments, and `AnsweredCall.outcome` for what it does;
* `BuiltBy`, `builtBy_answered` — the condition that values and operators build, and those of the calls of a run;
* `Criterion.built_document` — the document that calls lead to.
-/

namespace FileDepot

/-- Operators may be entered, since no value has been given. -/
def Condition.takesOperators : Condition → Bool
  | .equals _ => false
  | .operators _ => true

namespace Criterion

/-! ## Operators by name -/

theorem lookup_setOperator (name : String) (v : Value) (ops : List (String × Value)) (other : String) :
    (setOperator name v ops).lookup other = if other = name then some v else ops.lookup other := by
  induction ops with
  | nil => exact lookup_pair other (name, v) []
  | cons op ops ih =>
    rw [lookup_pair, setOperator]
    by_cases hname : op.1 = name
    · rw [if_pos hname, lookup_pair, hname]
      split <;> rfl
    · rw [if_neg hname, lookup_pair, ih]
      by_cases hother : other = op.1
      · rw [if_pos hother, if_pos hother, if_neg (hother ▸ hname)]
      · rw [if_neg hother, if_neg hother]

/-- A name that is there keeps its place, and a new one comes last. -/
theorem names_setOperator (name : String) (v : Value) (ops : List (String × Value)) :
    (setOperator name v ops).map (·.1) =
      if name ∈ ops.map (·.1) then ops.map (·.1) else ops.map (·.1) ++ [name] := by
  induction ops with
  | nil => simp [setOperator]
  | cons op ops ih =>
    obtain ⟨n, w⟩ := op
    by_cases hn : n = name
    · simp [setOperator, hn]
    · simp only [setOperator, if_neg hn, List.map_cons, ih, List.mem_cons, Ne.symm hn, false_or]
      split <;> rfl

/-- The operators with others set, one after another. -/
def setOperators (ops written : List (String × Value)) : List (String × Value) :=
  written.foldl (fun ops e => setOperator e.1 e.2 ops) ops

/-- **Operators keep the place of their first entry and the value of their last.** -/
structure EnteredAs (ops written : List (String × Value)) : Prop where
  names : ops.map (·.1) = (written.map (·.1)).eraseDups
  values : ∀ name, ops.lookup name = written.reverse.lookup name

namespace EnteredAs

variable {ops written : List (String × Value)}

theorem nil : EnteredAs [] [] := ⟨rfl, fun _ => rfl⟩

/-- Nothing has been entered where there are no operators. -/
theorem eq_nil (h : EnteredAs [] written) : written = [] := by
  cases written with
  | nil => rfl
  | cons e written =>
    have hnames := h.names
    rw [List.map_cons, List.eraseDups_cons] at hnames
    cases hnames

theorem setOperator (h : EnteredAs ops written) (e : String × Value) :
    EnteredAs (Criterion.setOperator e.1 e.2 ops) (written ++ [e]) := by
  constructor
  · rw [names_setOperator, h.names, List.map_append, List.eraseDups_append]
    by_cases hmem : e.1 ∈ written.map (·.1) <;>
      simp [List.removeAll, List.eraseDups_cons, hmem]
  · intro name
    rw [lookup_setOperator, h.values, List.reverse_append, List.reverse_singleton,
      List.singleton_append, lookup_pair]

theorem setOperators (h : EnteredAs ops written) (more : List (String × Value)) :
    EnteredAs (setOperators ops more) (written ++ more) := by
  induction more generalizing ops written with
  | nil => rwa [List.append_nil]
  | cons e more ih =>
    rw [List.append_cons]
    exact ih (h.setOperator e)

end EnteredAs

/-- The entries of a document lead where the operators do. -/
theorem get?_operatorEntries (name : String) (ops : List (String × Value)) :
    (operatorEntries ops).get? name = ops.lookup name := by
  induction ops with
  | nil => rfl
  | cons op ops ih =>
    show Entries.get? name ((.text op.1, op.2) :: operatorEntries ops) = _
    rw [Entries.get?_cons, lookup_pair, ih]
    simp only [Value.text?, Option.some.injEq, eq_comm]

/-! ## One call -/

/-- A change is made or refused as a whole. -/
theorem change_run (f : Criterion → Except Failure Criterion) (c : Criterion) :
    (change f).run c =
      match f c with
      | .ok c' => (.ok (), c')
      | .error e => (.error e, c) := by
  show (get >>= fun c => liftM (f c) >>= fun c => set c : CriterionM Unit).run c = _
  rw [Step.run_bind, Step.run_get]
  simp only
  rw [Step.run_bind, Step.run_liftM]
  cases f c <;> rfl

theorem withOperator_of_operators {c : Criterion} {ops : List (String × Value)}
    (h : c.condition = .operators ops) (name : String) (v : Value) :
    c.withOperator name v = .ok { c with condition := .operators (setOperators ops [(name, v)]) } := by
  rw [withOperator, h]
  rfl

theorem withOperator_eq_ok {c c' : Criterion} {name : String} {v : Value}
    (h : c.withOperator name v = .ok c') :
    ∃ ops, c.condition = .operators ops ∧
      c' = { c with condition := .operators (setOperators ops [(name, v)]) } := by
  cases hcondition : c.condition with
  | equals w =>
    obtain ⟨e, he⟩ := withOperator_equals c w v name hcondition
    rw [he] at h
    cases h
  | operators ops =>
    rw [withOperator_of_operators hcondition] at h
    exact ⟨ops, rfl, (Except.ok.inj h).symm⟩

theorem equalTo_eq_ok {c c' : Criterion} {v : Value} (h : c.equalTo v = .ok c') :
    (∀ op ops, c.condition ≠ .operators (op :: ops)) ∧ c' = { c with condition := .equals v } := by
  have hempty : ∀ op ops, c.condition ≠ .operators (op :: ops) := by
    intro op ops hcondition
    obtain ⟨e, he⟩ := equalTo_operators c op ops v hcondition
    rw [he] at h
    cases h
  refine ⟨hempty, ?_⟩
  rw [equalTo] at h
  split at h
  · cases h
  · exact (Except.ok.inj h).symm

/-- A criterion on a field starts without a condition. -/
theorem on_eq_ok {key : Value} {c : Criterion} (h : on key = .ok c) : c = { key := key } := by
  rw [on] at h
  split at h
  · cases h
  · exact (Except.ok.inj h).symm

/-- The value that a call gives the field, if it gives it one. -/
def Call.value? : Call → Option Value
  | .equalTo v => some v
  | _ => none

/-- A call, and how its arguments answer it. -/
structure AnsweredCall where
  answers : Answering
  call : Call

namespace AnsweredCall

/-- The criterion behind the call, whether or not the call fails. -/
def after (c : Criterion) (x : AnsweredCall) : Criterion :=
  ((x.call.stepWith x.answers).run c).2

/-- Whether the call succeeds. -/
def succeeds (c : Criterion) (x : AnsweredCall) : Bool :=
  ((x.call.stepWith x.answers).run c).1.isOk

/-- The value that the call gives the field, if it gives it one. -/
def value? (x : AnsweredCall) : Option Value :=
  x.call.value?

/-- The operators that the call enters if it succeeds. -/
def written (x : AnsweredCall) : List (String × Value) :=
  match x.call with
  | .equalTo _ => []
  | .matching pattern options =>
    ("$regex", pattern) :: if x.answers.truth options = .ok true then [("$options", options)] else []
  | .oneOf values => [("$in", .list ((x.answers.items values).toOption.getD []))]
  | .unequal v => [("$ne", v)]
  | .present flag => [("$exists", flag)]

/-- The operators that the call leaves behind if it fails on a criterion that takes operators: an expression that is
not compiled, if its options do not answer whether they are any. -/
def leftover (x : AnsweredCall) : List (String × Value) :=
  match x.call with
  | .matching (.pattern _) _ => []
  | .matching pattern options =>
    match x.answers.truth options with
    | .ok _ => []
    | .error _ => [("$regex", pattern)]
  | _ => []

theorem leftover_eq {x : AnsweredCall} {pattern options : Value} {failure : Failure}
    (hcall : x.call = .matching pattern options) (hcompiled : ¬∃ p, pattern = .pattern p)
    (htruth : x.answers.truth options = .error failure) : x.leftover = [("$regex", pattern)] := by
  cases pattern with
  | pattern p => exact absurd ⟨p, rfl⟩ hcompiled
  | _ => simp only [leftover, hcall, htruth]

theorem written_ne_nil {x : AnsweredCall} (h : x.value? = none) : x.written ≠ [] := by
  obtain ⟨answers, call⟩ := x
  cases call with
  | equalTo v => cases h
  | _ => exact List.cons_ne_nil _ _

/-- What a call does to a criterion. It gives a value where there are no operators, it enters operators where there is
no value, it fails and changes nothing, or it fails and leaves something behind where there is no value. -/
inductive Outcome (x : AnsweredCall) (c : Criterion) : Bool → Criterion → Prop
  | gives {v : Value} (hvalue : x.value? = some v) (hempty : ∀ op ops, c.condition ≠ .operators (op :: ops)) :
    Outcome x c true { c with condition := .equals v }
  | enters {ops : List (String × Value)} (hvalue : x.value? = none) (hcondition : c.condition = .operators ops) :
    Outcome x c true { c with condition := .operators (setOperators ops x.written) }
  | fails (hnothing : c.condition.takesOperators = false ∨ x.leftover = []) : Outcome x c false c
  | leaves {pattern options : Value} {failure : Failure} {ops : List (String × Value)}
    (hcall : x.call = .matching pattern options) (hcompiled : ¬∃ p, pattern = .pattern p)
    (htruth : x.answers.truth options = .error failure) (hcondition : c.condition = .operators ops) :
    Outcome x c false { c with condition := .operators (setOperator "$regex" pattern ops) }

section

variable {answers : Answering}

/-- A call that is one change of the criterion. -/
theorem outcome_of_change {call : Call} {f : Criterion → Except Failure Criterion}
    (hleftover : leftover ⟨answers, call⟩ = []) (hstep : call.stepWith answers = change f) {c : Criterion}
    (hok : ∀ c', f c = .ok c' → Outcome ⟨answers, call⟩ c true c') :
    Outcome ⟨answers, call⟩ c (succeeds c ⟨answers, call⟩) (after c ⟨answers, call⟩) := by
  rw [succeeds, after, hstep, change_run]
  cases hf : f c with
  | ok c' => exact hok c' hf
  | error failure => exact .fails (.inr hleftover)

/-- A call that first gets an answer, and then enters an operator. -/
theorem outcome_of_answer {α : Type} {call : Call} {answer : Except Failure α} {name : String} {operand : α → Value}
    (hvalue : call.value? = none) (hleftover : leftover ⟨answers, call⟩ = [])
    (hstep : call.stepWith answers = liftM answer >>= fun a => change (·.withOperator name (operand a)))
    (hwritten : ∀ a, answer = .ok a → written ⟨answers, call⟩ = [(name, operand a)]) (c : Criterion) :
    Outcome ⟨answers, call⟩ c (succeeds c ⟨answers, call⟩) (after c ⟨answers, call⟩) := by
  rw [succeeds, after, hstep, Step.run_bind, Step.run_liftM]
  cases hanswer : answer with
  | error failure => exact .fails (.inr hleftover)
  | ok a =>
    simp only [change_run]
    cases hentered : c.withOperator name (operand a) with
    | error failure => exact .fails (.inr hleftover)
    | ok c' =>
      obtain ⟨ops, hops, rfl⟩ := withOperator_eq_ok hentered
      rw [← hwritten a hanswer]
      exact .enters hvalue hops

/-- A compiled pattern is entered if it has no options. -/
theorem outcome_compiled (p : Pattern) (options : Value) (c : Criterion) :
    Outcome ⟨answers, .matching (.pattern p) options⟩ c (succeeds c ⟨answers, .matching (.pattern p) options⟩)
      (after c ⟨answers, .matching (.pattern p) options⟩) := by
  have hstep : (Call.matching (.pattern p) options).stepWith answers = liftM (answers.truth options) >>= fun given =>
      if given then throw (.invalid "options cannot be combined with a compiled pattern")
      else change (·.withOperator "$regex" (.pattern p)) := by
    rw [Call.stepWith]
    congr
  rw [succeeds, after, hstep, Step.run_bind, Step.run_liftM]
  cases hgiven : answers.truth options with
  | error failure => exact .fails (.inr rfl)
  | ok given =>
    cases given with
    | true => exact .fails (.inr rfl)
    | false =>
      show Outcome _ c ((change (·.withOperator "$regex" (.pattern p))).run c).1.isOk
        ((change (·.withOperator "$regex" (.pattern p))).run c).2
      rw [change_run]
      cases hentered : c.withOperator "$regex" (.pattern p) with
      | error failure => exact .fails (.inr rfl)
      | ok c' =>
        obtain ⟨ops, hops, rfl⟩ := withOperator_eq_ok hentered
        have hwritten : written ⟨answers, .matching (.pattern p) options⟩ = [("$regex", .pattern p)] := by
          simp [written, hgiven]
        rw [← hwritten]
        exact .enters rfl hops

/-- Any other expression is entered before its options are looked at. -/
theorem outcome_expression {pattern : Value} (h : ¬∃ p, pattern = .pattern p) (options : Value) (c : Criterion) :
    Outcome ⟨answers, .matching pattern options⟩ c (succeeds c ⟨answers, .matching pattern options⟩)
      (after c ⟨answers, .matching pattern options⟩) := by
  have hstep : (Call.matching pattern options).stepWith answers =
      change (·.withOperator "$regex" pattern) >>= fun _ => liftM (answers.truth options) >>= fun given =>
        if given then change (·.withOperator "$options" options) else pure () := by
    cases pattern with
    | pattern p => exact absurd ⟨p, rfl⟩ h
    | _ => rfl
  rw [succeeds, after, hstep, Step.run_bind, change_run]
  cases hcondition : c.condition with
  | equals w =>
    obtain ⟨failure, hfails⟩ := withOperator_equals c w pattern "$regex" hcondition
    rw [hfails]
    exact .fails (.inl (congrArg Condition.takesOperators hcondition))
  | operators ops =>
    rw [withOperator_of_operators hcondition]
    simp only [Step.run_bind, Step.run_liftM]
    cases hgiven : answers.truth options with
    | error failure => exact .leaves rfl h hgiven hcondition
    | ok given =>
      -- the expression has been entered, so nothing stands in the way of its options
      have hwritten : written ⟨answers, .matching pattern options⟩ =
          ("$regex", pattern) :: if given then [("$options", options)] else [] := by
        simp [written, hgiven]
      have henters := Outcome.enters (x := ⟨answers, .matching pattern options⟩) rfl hcondition
      rw [hwritten] at henters
      cases given with
      | true =>
        simp only [if_true, change_run]
        exact henters
      | false => exact henters

end

/-- **A call that succeeds gives a value or enters operators, and one that fails changes nothing** unless it leaves an
expression behind. -/
theorem outcome (x : AnsweredCall) (c : Criterion) : Outcome x c (x.succeeds c) (x.after c) := by
  obtain ⟨answers, call⟩ := x
  cases call with
  | equalTo v =>
    refine outcome_of_change rfl rfl fun c' hc' => ?_
    obtain ⟨hempty, rfl⟩ := equalTo_eq_ok hc'
    exact .gives rfl hempty
  | unequal v =>
    refine outcome_of_change rfl rfl fun c' hc' => ?_
    obtain ⟨ops, hops, rfl⟩ := withOperator_eq_ok hc'
    exact .enters rfl hops
  | present flag =>
    refine outcome_of_change rfl rfl fun c' hc' => ?_
    obtain ⟨ops, hops, rfl⟩ := withOperator_eq_ok hc'
    exact .enters rfl hops
  | oneOf values =>
    refine outcome_of_answer rfl rfl rfl (fun vs hvs => ?_) c
    simp only [written, hvs]
    rfl
  | matching pattern options =>
    by_cases hcompiled : ∃ p, pattern = .pattern p
    · obtain ⟨p, rfl⟩ := hcompiled
      exact outcome_compiled p options c
    · exact outcome_expression hcompiled options c

end AnsweredCall

/-! ## Calls one after another -/

/-- **A condition shows what has built it.** Either only values have been given, and the last of these is there, or only
operators have been entered. -/
def BuiltBy (given : List Value) (entered : List (String × Value)) : Condition → Prop
  | .equals v => entered = [] ∧ given.getLast? = some v
  | .operators ops => given = [] ∧ EnteredAs ops entered

namespace BuiltBy

variable {given : List Value} {entered : List (String × Value)} {condition : Condition}

/-- One more value, where there are no operators. -/
theorem give (h : BuiltBy given entered condition) (hempty : ∀ op ops, condition ≠ .operators (op :: ops)) (v : Value) :
    BuiltBy (given ++ [v]) entered (.equals v) := by
  refine ⟨?_, List.getLast?_concat ..⟩
  cases condition with
  | equals w => exact h.1
  | operators ops =>
    obtain rfl : ops = [] := by
      cases ops with
      | nil => rfl
      | cons op ops => exact absurd rfl (hempty op ops)
    exact h.2.eq_nil

/-- More operators, where there is no value. -/
theorem enter {ops : List (String × Value)} (h : BuiltBy given entered (.operators ops))
    (more : List (String × Value)) : BuiltBy given (entered ++ more) (.operators (setOperators ops more)) :=
  ⟨h.1, h.2.setOperators more⟩

/-- Where something has been entered there are operators. -/
theorem operators_of_ne_nil (h : BuiltBy given entered condition) (hne : entered ≠ []) :
    ∃ op ops, condition = .operators (op :: ops) := by
  cases condition with
  | equals v => exact absurd h.1 hne
  | operators ops =>
    cases ops with
    | nil => exact absurd h.2.eq_nil hne
    | cons op ops => exact ⟨op, ops, rfl⟩

/-- Where a value has been given there is one. -/
theorem equals_of_ne_nil (h : BuiltBy given entered condition) (hne : given ≠ []) : ∃ v, condition = .equals v := by
  cases condition with
  | equals v => exact ⟨v, rfl⟩
  | operators ops => exact absurd h.1 hne

end BuiltBy

/-- The criterion behind calls that are made one after another. -/
def builtWith (c : Criterion) (calls : List AnsweredCall) : Criterion :=
  calls.foldl AnsweredCall.after c

/-- The calls that succeed. -/
def succeededWith (c : Criterion) (calls : List AnsweredCall) : List AnsweredCall :=
  Run.select AnsweredCall.after (fun c x => x.succeeds c) c calls

/-- What a call enters into a criterion: its operators if it succeeds, and else what it leaves behind where there is no
value. -/
def AnsweredCall.entered (c : Criterion) (x : AnsweredCall) : List (String × Value) :=
  if x.succeeds c then x.written else if c.condition.takesOperators then x.leftover else []

/-- The operators that calls enter, one after another. -/
def enteredBy (c : Criterion) (calls : List AnsweredCall) : List (String × Value) :=
  (Run.trace AnsweredCall.after c calls).flatMap fun e => e.2.entered e.1

theorem builtWith_concat (c : Criterion) (calls : List AnsweredCall) (x : AnsweredCall) :
    builtWith c (calls ++ [x]) = x.after (builtWith c calls) :=
  List.foldl_concat ..

theorem succeededWith_concat (c : Criterion) (calls : List AnsweredCall) (x : AnsweredCall) :
    succeededWith c (calls ++ [x]) =
      if x.succeeds (builtWith c calls) then succeededWith c calls ++ [x] else succeededWith c calls :=
  Run.select_concat AnsweredCall.after (fun c x => x.succeeds c) c calls x

theorem enteredBy_concat (c : Criterion) (calls : List AnsweredCall) (x : AnsweredCall) :
    enteredBy c (calls ++ [x]) = enteredBy c calls ++ x.entered (builtWith c calls) := by
  unfold enteredBy
  rw [Run.trace_concat, List.flatMap_append, List.flatMap_singleton]
  rfl

/-- What one more call makes of a condition. -/
theorem BuiltBy.after {given : List Value} {entered : List (String × Value)} {c : Criterion}
    (h : BuiltBy given entered c.condition) (x : AnsweredCall) :
    (x.after c).key = c.key ∧
      BuiltBy (given ++ if x.succeeds c then x.value?.toList else []) (entered ++ x.entered c)
        (x.after c).condition := by
  unfold AnsweredCall.entered
  have houtcome := x.outcome c
  generalize x.succeeds c = succeeds at houtcome ⊢
  generalize x.after c = c' at houtcome ⊢
  cases houtcome with
  | gives hvalue hempty =>
    have hwritten : x.written = [] := by
      obtain ⟨answers, call⟩ := x
      cases call with
      | equalTo v => rfl
      | _ => cases hvalue
    rw [if_pos rfl, if_pos rfl, hwritten, hvalue, List.append_nil]
    exact ⟨rfl, h.give hempty _⟩
  | enters hvalue hcondition =>
    rw [if_pos rfl, if_pos rfl, hvalue]
    rw [hcondition] at h
    exact ⟨rfl, (List.append_nil given).symm ▸ h.enter x.written⟩
  | fails hnothing =>
    have hentered : (if c.condition.takesOperators then x.leftover else []) = [] := by
      rcases hnothing with htakes | hleftover
      · rw [htakes, if_neg Bool.false_ne_true]
      · rw [hleftover, ite_self]
    rw [if_neg Bool.false_ne_true, if_neg Bool.false_ne_true, hentered, List.append_nil, List.append_nil]
    exact ⟨rfl, h⟩
  | @leaves pattern options failure ops hcall hcompiled htruth hcondition =>
    have htakes : c.condition.takesOperators = true := congrArg Condition.takesOperators hcondition
    rw [if_neg Bool.false_ne_true, if_neg Bool.false_ne_true, if_pos htakes, List.append_nil,
      AnsweredCall.leftover_eq hcall hcompiled htruth]
    rw [hcondition] at h
    exact ⟨rfl, h.enter [("$regex", pattern)]⟩

/-- Calls on a criterion leave its field as it is and build its condition. -/
theorem builtBy_answered (key : Value) (calls : List AnsweredCall) :
    (builtWith { key := key } calls).key = key ∧
      BuiltBy ((succeededWith { key := key } calls).filterMap AnsweredCall.value?)
        (enteredBy { key := key } calls) (builtWith { key := key } calls).condition := by
  -- from behind, since the last call is made on what the calls before it have built
  induction calls using List.reverseRecOn with
  | nil => exact ⟨rfl, rfl, EnteredAs.nil⟩
  | append_singleton calls x ih =>
    obtain ⟨hkey, hbuilt⟩ := ih
    obtain ⟨hafter, hone⟩ := hbuilt.after x
    rw [builtWith_concat, succeededWith_concat, enteredBy_concat]
    refine ⟨hafter.trans hkey, ?_⟩
    cases hsucceeds : x.succeeds (builtWith { key := key } calls) with
    | false =>
      rw [hsucceeds, if_neg Bool.false_ne_true, List.append_nil] at hone
      rw [if_neg Bool.false_ne_true]
      exact hone
    | true =>
      rw [hsucceeds, if_pos rfl] at hone
      rw [if_pos rfl, List.filterMap_append, List.filterMap_cons]
      cases hvalue : x.value? <;> rw [hvalue] at hone <;> exact hone

/-- Where a call of the kind that enters operators has succeeded, something has been entered. -/
theorem enteredBy_ne_nil {c : Criterion} {calls : List AnsweredCall} {x : AnsweredCall}
    (hx : x ∈ succeededWith c calls) (hvalue : x.value? = none) : enteredBy c calls ≠ [] := by
  obtain ⟨e, he, rfl⟩ := List.mem_map.mp hx
  obtain ⟨htrace, hsucceeds⟩ := List.mem_filter.mp he
  intro hnothing
  have hentered := List.flatMap_eq_nil_iff.mp hnothing e htrace
  rw [AnsweredCall.entered, if_pos hsucceeds] at hentered
  exact AnsweredCall.written_ne_nil hvalue hentered

/-- A call that fails changes nothing but what an expression that it leaves behind changes. -/
theorem AnsweredCall.after_of_fails {x : AnsweredCall} {c : Criterion} (h : x.succeeds c = false) :
    x.after c = c ∨
      ∃ pattern options failure ops, x.call = .matching pattern options ∧ (¬∃ p, pattern = .pattern p) ∧
        x.answers.truth options = .error failure ∧ c.condition = .operators ops ∧
        x.after c = { c with condition := .operators (setOperator "$regex" pattern ops) } := by
  have houtcome := x.outcome c
  rw [h] at houtcome
  generalize x.after c = c' at houtcome ⊢
  cases houtcome with
  | fails => exact .inl rfl
  | leaves hcall hcompiled htruth hcondition =>
    exact .inr ⟨_, _, _, _, hcall, hcompiled, htruth, hcondition, rfl⟩

/-- Where there are operators no value is given. -/
theorem AnsweredCall.gives_fails {c : Criterion} {op : String × Value} {ops : List (String × Value)}
    (hcondition : c.condition = .operators (op :: ops)) {x : AnsweredCall} (hvalue : x.value? ≠ none) :
    x.succeeds c = false := by
  have houtcome := x.outcome c
  generalize x.succeeds c = succeeds at houtcome ⊢
  generalize x.after c = c' at houtcome
  cases houtcome with
  | gives _ hempty => exact absurd hcondition (hempty op ops)
  | enters hnone => exact absurd hnone hvalue
  | fails | leaves => rfl

/-- Where there is a value no operators are entered. -/
theorem AnsweredCall.enters_fails {c : Criterion} {v : Value} (hcondition : c.condition = .equals v)
    {x : AnsweredCall} (hvalue : x.value? = none) : x.succeeds c = false := by
  have houtcome := x.outcome c
  generalize x.succeeds c = succeeds at houtcome ⊢
  generalize x.after c = c' at houtcome
  cases houtcome with
  | gives hsome => exact absurd (hvalue.symm.trans hsome) (by simp)
  | enters _ hoperators => exact absurd (hcondition.symm.trans hoperators) (by simp)
  | fails | leaves => rfl

/-- **Calls never mix, and a call that fails changes nothing**, except that an expression stays that was entered beside
options which do not answer whether they are any. Once operators have been entered no value is given, and once a value
has been given no operators are entered. The document has the field as its only key, if it can be one, and for it either
the value that was given last or the operators in the order in which they were first entered, each with what was entered
for it last. -/
theorem built_document (key : Value) (calls : List AnsweredCall) :
    let c := builtWith { key := key } calls
    (∀ x : AnsweredCall, x.succeeds c = false →
        x.after c = c ∨
          ∃ pattern options failure ops, x.call = .matching pattern options ∧ (¬∃ p, pattern = .pattern p) ∧
            x.answers.truth options = .error failure ∧ c.condition = .operators ops ∧
            x.after c = { c with condition := .operators (setOperator "$regex" pattern ops) }) ∧
      ((∃ x ∈ succeededWith { key := key } calls, x.value? = none) →
        ∀ answers v, AnsweredCall.succeeds c ⟨answers, .equalTo v⟩ = false) ∧
      ((∃ x ∈ succeededWith { key := key } calls, x.value? ≠ none) →
        ∀ x : AnsweredCall, x.value? = none → x.succeeds c = false) ∧
      ∃ operand,
        c.document = (if key.hashable then .ok [(key, operand)] else .error .wrongKind) ∧
          match ((succeededWith { key := key } calls).filterMap AnsweredCall.value?).getLast? with
          | some v => operand = v
          | none => ∃ ops, operand = .document (operatorEntries ops) ∧
              EnteredAs ops (enteredBy { key := key } calls) := by
  intro c
  obtain ⟨hkey, hbuilt⟩ := builtBy_answered key calls
  refine ⟨fun x => AnsweredCall.after_of_fails, ?_, ?_, Condition.operand c.condition, ?_, ?_⟩
  · rintro ⟨x, hx, hvalue⟩ answers v
    obtain ⟨op, ops, hcondition⟩ := hbuilt.operators_of_ne_nil (enteredBy_ne_nil hx hvalue)
    exact AnsweredCall.gives_fails hcondition (Option.some_ne_none v)
  · rintro ⟨x, hx, hgiven⟩ x' hvalue
    obtain ⟨v, hv⟩ := Option.ne_none_iff_exists'.mp hgiven
    have hne : (succeededWith { key := key } calls).filterMap AnsweredCall.value? ≠ [] :=
      List.ne_nil_of_mem (List.mem_filterMap.mpr ⟨x, hx, hv⟩)
    obtain ⟨w, hcondition⟩ := hbuilt.equals_of_ne_nil hne
    exact AnsweredCall.enters_fails hcondition hvalue
  · rw [document, hkey]
  · cases hcondition : c.condition with
    | equals v =>
      rw [hcondition] at hbuilt
      rw [hbuilt.2]
      rfl
    | operators ops =>
      rw [hcondition] at hbuilt
      rw [hbuilt.1]
      exact ⟨ops, rfl, hbuilt.2⟩

/-- A view of memory that has been released does not answer whether there is anything in it. As options beside an
expression it makes the call fail, and the expression stays. A list can be no key, so that a criterion on one has no
document at all. -/
theorem changed_by_failing_call :
    let released : AnsweredCall :=
      { answers :=
          { truth := fun _ => .error (.invalid "operation forbidden on released memoryview object")
            items := Value.elements }
        call := .matching (.text "a") (.foreign (.buffer "memoryview" [])) }
    let c : Criterion := { key := .text "k" }
    on (.text "k") = .ok c ∧ c.document = .ok [(.text "k", .document [])] ∧ released.succeeds c = false ∧
      (released.after c).document = .ok [(.text "k", .document [(.text "$regex", .text "a")])] ∧
      on (.list [.int 1]) = .ok { key := .list [.int 1] } ∧
      (builtWith { key := .list [.int 1] } []).document = .error .wrongKind :=
  ⟨rfl, rfl, rfl, rfl, rfl, rfl⟩

end Criterion

end FileDepot
