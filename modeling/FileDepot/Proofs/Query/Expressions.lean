import FileDepot.Proofs.Query.Building

/-!
# The expression of a criterion

The arguments of calls mostly answer for themselves. Then a call that fails changes nothing, and what a criterion holds
has been entered by calls that succeed: the expression by the last of them that enters one, but its options by the last
that is given any.

Contents:

* `Call.after`, `Criterion.built`, `Criterion.succeeded` — calls whose arguments answer for themselves;
* `builtBy_succeeded` — what they build;
* `Call.pattern?`, `Call.options?` — what a call enters for an expression;
* `Criterion.built_expression` — the expression in the document, with its options.
-/

namespace FileDepot.Criterion

/-! ## Calls whose arguments answer for themselves -/

namespace Call

/-- The call with arguments that answer for themselves. -/
def plain (call : Call) : AnsweredCall :=
  ⟨.plain, call⟩

/-- The criterion behind the call, whether or not the call fails. -/
def after (c : Criterion) (call : Call) : Criterion :=
  (call.step.run c).2

/-- Whether the call succeeds. -/
def succeeds (c : Criterion) (call : Call) : Bool :=
  (call.step.run c).1.isOk

/-- The operators that the call enters. -/
def written (call : Call) : List (String × Value) :=
  call.plain.written

theorem entered_plain (c : Criterion) (call : Call) :
    call.plain.entered c = if call.succeeds c then call.written else [] := by
  have hleftover : call.plain.leftover = [] := by
    cases call with
    | matching pattern options => cases pattern <;> rfl
    | _ => rfl
  rw [AnsweredCall.entered, hleftover, ite_self]
  rfl

end Call

/-- The criterion behind calls that are made one after another. -/
def built (c : Criterion) (calls : List Call) : Criterion :=
  calls.foldl Call.after c

/-- The calls that succeed. -/
def succeeded (c : Criterion) (calls : List Call) : List Call :=
  ((Run.trace Call.after c calls).filter fun e => e.2.succeeds e.1).map (·.2)

theorem builtWith_plain (c : Criterion) (calls : List Call) : builtWith c (calls.map Call.plain) = built c calls := by
  rw [builtWith, List.foldl_map]
  rfl

theorem succeededWith_plain (c : Criterion) (calls : List Call) :
    succeededWith c (calls.map Call.plain) = (succeeded c calls).map Call.plain :=
  Run.select_map AnsweredCall.after Call.plain (fun c x => x.succeeds c) c calls

theorem succeeded_concat (c : Criterion) (calls : List Call) (call : Call) :
    succeeded c (calls ++ [call]) =
      if call.succeeds (built c calls) then succeeded c calls ++ [call] else succeeded c calls :=
  Run.select_concat Call.after (fun c call => call.succeeds c) c calls call

/-- Nothing is entered but by calls that succeed. -/
theorem enteredBy_plain (c : Criterion) (calls : List Call) :
    enteredBy c (calls.map Call.plain) = (succeeded c calls).flatMap Call.written := by
  induction calls using List.reverseRecOn with
  | nil => rfl
  | append_singleton calls call ih =>
    rw [List.map_append, List.map_singleton, enteredBy_concat, builtWith_plain, Call.entered_plain, ih,
      succeeded_concat]
    split
    · rw [List.flatMap_append, List.flatMap_singleton]
    · rw [List.append_nil]

/-- Calls on a criterion on a field leave the field as it is and build the condition. -/
theorem builtBy_succeeded {key : Value} {c : Criterion} (h : on key = .ok c) (calls : List Call) :
    (built c calls).key = key ∧
      BuiltBy ((succeeded c calls).filterMap Call.value?) ((succeeded c calls).flatMap Call.written)
        (built c calls).condition := by
  obtain rfl := on_eq_ok h
  have hbuilt := builtBy_answered key (calls.map Call.plain)
  rw [builtWith_plain, succeededWith_plain, enteredBy_plain, List.filterMap_map] at hbuilt
  exact hbuilt

/-! ## Expressions -/

namespace Call

/-- The expression that the call enters, if it is one that enters one. -/
def pattern? : Call → Option Value
  | .matching pattern _ => some pattern
  | _ => none

/-- The options that the call enters beside an expression. -/
def options? : Call → Option Value
  | .matching _ options => if options.truthy then some options else none
  | _ => none

theorem written_matching (pattern options : Value) :
    written (.matching pattern options) =
      ("$regex", pattern) :: if options.truthy then [("$options", options)] else [] := by
  simp [written, AnsweredCall.written, plain, Answering.plain]

theorem lookup_regex (call : Call) : call.written.reverse.lookup "$regex" = call.pattern? := by
  cases call with
  | matching pattern options =>
    rw [written_matching]
    split <;> rfl
  | _ => rfl

theorem lookup_options (call : Call) : call.written.reverse.lookup "$options" = call.options? := by
  cases call with
  | matching pattern options =>
    rw [written_matching, options?]
    split <;> rfl
  | _ => rfl

end Call

/-- Of what calls have entered under a name the last counts. -/
theorem lookup_flatMap_written {name : String} {entered? : Call → Option Value}
    (h : ∀ call : Call, call.written.reverse.lookup name = entered? call) (calls : List Call) :
    (calls.flatMap Call.written).reverse.lookup name = (calls.filterMap entered?).getLast? := by
  induction calls using List.reverseRecOn with
  | nil => rfl
  | append_singleton calls call ih =>
    rw [List.flatMap_append, List.flatMap_singleton, List.reverse_append, List.lookup_append, h, ih,
      List.filterMap_append, List.getLast?_append]
    cases hentered : entered? call <;> simp [hentered]

/-- **The expression is that of the last call that enters one, but its options may come from a call before it.** The
document holds the options of the last call that has been given any, whether or not the expression is still that
of this call. -/
theorem built_expression {key : Value} {c : Criterion} (h : on key = .ok c) {calls before behind : List Call}
    {pattern options : Value} (hdone : succeeded c calls = before ++ .matching pattern options :: behind)
    (hlast : ∀ call ∈ behind, call.pattern? = none) :
    ∃ es : Entries,
      (built c calls).document = (if key.hashable then .ok [(key, .document es)] else .error .wrongKind) ∧
        es.get? "$regex" = some pattern ∧
        es.get? "$options" =
          if options.truthy then some options else (before.filterMap Call.options?).getLast? := by
  obtain ⟨hkey, hbuilt⟩ := builtBy_succeeded h calls
  rw [hdone] at hbuilt
  cases hcondition : (built c calls).condition with
  | equals v =>
    -- the expression could not have been entered beside a value
    rw [hcondition] at hbuilt
    have hnothing := List.flatMap_eq_nil_iff.mp hbuilt.1 (.matching pattern options) (by simp)
    rw [Call.written_matching] at hnothing
    cases hnothing
  | operators ops =>
    rw [hcondition] at hbuilt
    have hentered := hbuilt.2.values
    refine ⟨operatorEntries ops, by rw [document, hkey, hcondition, Condition.operand], ?_, ?_⟩
    · rw [get?_operatorEntries, hentered, lookup_flatMap_written Call.lookup_regex,
        List.filterMap_append, List.filterMap_cons, List.filterMap_eq_nil_iff.mpr hlast]
      exact List.getLast?_concat ..
    · have hoptions : ∀ call ∈ behind, call.options? = none := by
        intro call hcall
        cases call with
        | matching pattern options => cases hlast _ hcall
        | _ => rfl
      rw [get?_operatorEntries, hentered, lookup_flatMap_written Call.lookup_options,
        List.filterMap_append, List.filterMap_cons, List.filterMap_eq_nil_iff.mpr hoptions, Call.options?]
      cases options.truthy with
      | true => exact List.getLast?_concat ..
      | false => rw [if_neg Bool.false_ne_true, if_neg Bool.false_ne_true, List.append_nil]

/-- A compiled pattern that is entered behind an expression with options. -/
theorem built_expression_of_compiled :
    on (.text "k") = .ok { key := .text "k" } ∧
      succeeded { key := .text "k" }
          [.matching (.text "a") (.text "i"), .matching (.pattern ⟨.text "b", 32⟩) (.text "")] =
        [.matching (.text "a") (.text "i")] ++ .matching (.pattern ⟨.text "b", 32⟩) (.text "") :: [] ∧
      ∃ es : Entries,
        (built { key := .text "k" }
            [.matching (.text "a") (.text "i"), .matching (.pattern ⟨.text "b", 32⟩) (.text "")]).document =
          .ok [(.text "k", .document es)] ∧
        es.get? "$regex" = some (.pattern ⟨.text "b", 32⟩) ∧ es.get? "$options" = some (.text "i") := by
  have hon : on (.text "k") = .ok { key := .text "k" } := rfl
  have hdone : succeeded { key := .text "k" }
      [.matching (.text "a") (.text "i"), .matching (.pattern ⟨.text "b", 32⟩) (.text "")] =
        [.matching (.text "a") (.text "i")] ++ .matching (.pattern ⟨.text "b", 32⟩) (.text "") :: [] := rfl
  exact ⟨hon, hdone, built_expression hon hdone fun call hcall => by cases hcall⟩

end FileDepot.Criterion
