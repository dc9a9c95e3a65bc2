import FileDepot.Proofs.Query.Additions
import FileDepot.Proofs.Query.Sorting

/-!
# What calls on a query lead to

A query that is being built takes criteria, sort keys and paging in any order, and a call that fails leaves of its
change no more than the entries that it has come past. What the query stands for in the end is read off the calls: the
criteria are what has been given first for each field, and the paging and the directions what has been accepted last.

Contents:

* `Entries.firsts` — the first entry of each key, with `firsts_concat` and `get?_firsts`;
* `Query.reached`, `Query.firsts_reached` — the entries that an addition comes to, and those of them that are new;
* `Call.outcome` — what one call does to a query;
* `Query.built`, `Query.accepted`, `Query.given` — calls one after another;
* `Query.BuiltBy`, `Query.builtBy_calls` — a query shows the calls that have built it;
* `Query.built_lookup` — criteria, paging and order of the lookup that calls lead to.
-/

namespace FileDepot

/-! ## The first entry of each key -/

namespace Entries

/-- The entries with a key that is equal to none in front of it. -/
def firsts (es : Entries) : Entries :=
  es.foldl (fun kept e => if kept.any fun f => f.1.same e.1 then kept else kept ++ [e]) []

/-- One more entry is a first one if no key in front is equal to its key. -/
theorem firsts_concat (es : Entries) (e : Value × Value) :
    firsts (es ++ [e]) = if (firsts es).any fun f => f.1.same e.1 then firsts es else firsts es ++ [e] :=
  List.foldl_concat ..

/-- A name leads to the value that has been given first. -/
theorem get?_firsts (name : String) (es : Entries) : (firsts es).get? name = es.get? name := by
  induction es using List.reverseRecOn with
  | nil => rfl
  | append_singleton es e ih =>
    rw [firsts_concat, get?_append, ← ih]
    split
    · rename_i hold
      obtain ⟨f, hf, hsame⟩ := List.any_eq_true.mp hold
      by_cases hname : e.1.text? = some name
      · have hfound : ((firsts es).get? name).isSome = true :=
          get?_isSome hf ((Value.text?_of_same hsame).trans hname)
        rw [Option.or_of_isSome hfound]
      · rw [get?_cons, if_neg hname]
        exact (Option.or_none).symm
    · exact get?_append name (firsts es) [e]

end Entries

namespace Query

/-! ## The entries that an addition comes to -/

/-- The entries up to and including the first whose field has a criterion. -/
def reached (q : Query) : Entries → Entries
  | [] => []
  | e :: es => e :: if q.constrains e.1 then [] else reached (q.withEntries [e]) es

/-- The taken entries are the first ones behind the criteria. -/
theorem firsts_reached {q : Query} {before : Entries} (h : before.firsts = q.criteria) (es : Entries) :
    (before ++ q.reached es).firsts = q.criteria ++ q.taken es := by
  induction es generalizing q before with
  | nil =>
    show (before ++ []).firsts = q.criteria ++ []
    rw [List.append_nil, List.append_nil]
    exact h
  | cons e es ih =>
    have hfirst := Entries.firsts_concat before e
    rw [h] at hfirst
    rw [reached, taken]
    by_cases hold : q.constrains e.1 = true
    · rw [if_pos hold, if_pos hold, List.append_nil]
      exact hfirst.trans (if_pos hold)
    · have hrest := ih (hfirst.trans (if_neg hold) : _ = (q.withEntries [e]).criteria)
      rw [if_neg hold, if_neg hold, List.append_cons, hrest]
      exact List.append_assoc _ _ _

/-! ## One call -/

namespace Call

/-- The query behind the call, whether or not the call fails. -/
def after (q : Query) (call : Call) : Query :=
  (call.step q).1

/-- Whether the call succeeds. -/
def succeeds (q : Query) (call : Call) : Bool :=
  (call.step q).2.isNone

/-- The entries that the call adds, if its part can be read as entries. -/
def entries : Call → Entries
  | .add part => (QueryPart.entries part).toOption.getD []
  | _ => []

/-- The sort key that the call adds, with its direction. -/
def sortKey? : Call → Option (Value × Value)
  | .sortBy key direction => some (key, direction)
  | _ => none

/-- How many files the call has passed over. -/
def skip? : Call → Option Value
  | .withSkip n => some n
  | _ => none

/-- How many files the call has listed at most. -/
def limit? : Call → Option Value
  | .withLimit n => some n
  | _ => none

/-- What is asked of a call that succeeds: a direction is one of the two, and an amount is not negative. -/
def Accepts : Call → Prop
  | .add _ => True
  | .sortBy _ direction => isDirection direction = .ok true
  | .withSkip n => n.isNegative = .ok false
  | .withLimit n => n.isNegative = .ok false

theorem withSkip_eq_ok {q q' : Query} {n : Value} (h : q.withSkip n = .ok q') :
    n.isNegative = .ok false ∧ q' = { q with skip := n } := by
  obtain ⟨negative, hnegative, h⟩ := bind_eq_ok.mp h
  cases negative with
  | true => cases h
  | false => exact ⟨hnegative, (Except.ok.inj h).symm⟩

theorem withLimit_eq_ok {q q' : Query} {n : Value} (h : q.withLimit n = .ok q') :
    n.isNegative = .ok false ∧ q' = { q with limit := n } := by
  obtain ⟨negative, hnegative, h⟩ := bind_eq_ok.mp h
  cases negative with
  | true => cases h
  | false => exact ⟨hnegative, (Except.ok.inj h).symm⟩

/-- Entries are added as far as none is refused, whether or not the addition succeeds. -/
theorem after_add (q : Query) (part : QueryPart) :
    after q (.add part) = q.withEntries (q.taken (add part).entries) := by
  show (q.addPart part).1 = q.withEntries (q.taken ((QueryPart.entries part).toOption.getD []))
  unfold addPart
  cases QueryPart.entries part with
  | error failure => exact (withEntries_nil q).symm
  | ok es => exact congrArg Prod.fst (addEntries_eq q es)

/-- A change that is refused takes no entries either. -/
theorem outcome_of_settle {call : Call} {q : Query} {changed : Except Failure Query}
    (hstep : call.step q = settle q changed) (hentries : call.entries = []) :
    (∃ q', changed = .ok q' ∧ call.succeeds q = true ∧ call.after q = q') ∨
      (call.succeeds q = false ∧ call.after q = q.withEntries (q.taken call.entries)) := by
  unfold succeeds after
  rw [hstep, hentries]
  cases changed with
  | ok q' => exact .inl ⟨q', rfl, rfl, rfl⟩
  | error failure => exact .inr ⟨rfl, (withEntries_nil q).symm⟩

/-- **A call that succeeds does what it says, and one that fails does no more than add the entries in front of a
refused one.** -/
theorem outcome (call : Call) (q : Query) :
    (call.succeeds q = true ∧ call.Accepts ∧
        call.after q = { criteria := q.criteria ++ q.taken call.entries, sort := q.sort ++ call.sortKey?.toList,
                         skip := call.skip?.getD q.skip, limit := call.limit?.getD q.limit }) ∨
      (call.succeeds q = false ∧ call.after q = q.withEntries (q.taken call.entries)) := by
  cases call with
  | add part =>
    have hafter := after_add q part
    cases hsucceeds : succeeds q (.add part) with
    | false => exact .inr ⟨rfl, hafter⟩
    | true =>
      refine .inl ⟨rfl, trivial, hafter.trans ?_⟩
      simp [withEntries, sortKey?, skip?, limit?]
  | sortBy key direction =>
    rcases outcome_of_settle (show step q (.sortBy key direction) = _ from rfl) rfl with
      ⟨q', hchanged, hsucceeds, hafter⟩ | hfails
    · obtain ⟨hdirection, rfl⟩ := sortBy_eq_ok hchanged
      refine .inl ⟨hsucceeds, hdirection, hafter.trans ?_⟩
      simp [taken, entries, sortKey?, skip?, limit?]
    · exact .inr hfails
  | withSkip n =>
    rcases outcome_of_settle (show step q (.withSkip n) = _ from rfl) rfl with
      ⟨q', hchanged, hsucceeds, hafter⟩ | hfails
    · obtain ⟨hamount, rfl⟩ := withSkip_eq_ok hchanged
      refine .inl ⟨hsucceeds, hamount, hafter.trans ?_⟩
      simp [taken, entries, sortKey?, skip?, limit?]
    · exact .inr hfails
  | withLimit n =>
    rcases outcome_of_settle (show step q (.withLimit n) = _ from rfl) rfl with
      ⟨q', hchanged, hsucceeds, hafter⟩ | hfails
    · obtain ⟨hamount, rfl⟩ := withLimit_eq_ok hchanged
      refine .inl ⟨hsucceeds, hamount, hafter.trans ?_⟩
      simp [taken, entries, sortKey?, skip?, limit?]
    · exact .inr hfails

end Call

/-! ## Calls one after another -/

/-- The query behind calls that are made one after another. -/
def built (calls : List Call) : Query :=
  calls.foldl Call.after {}

/-- The calls that succeed. -/
def accepted (calls : List Call) : List Call :=
  Run.select Call.after (fun q call => call.succeeds q) {} calls

/-- The entries that the additions come to, in order: all those of an addition that succeeds, and those of a refused one
as far as the one that is refused. -/
def given (calls : List Call) : Entries :=
  (Run.trace Call.after {} calls).flatMap fun e => e.1.reached e.2.entries

theorem built_concat (calls : List Call) (call : Call) : built (calls ++ [call]) = call.after (built calls) :=
  List.foldl_concat ..

theorem accepted_concat (calls : List Call) (call : Call) :
    accepted (calls ++ [call]) =
      if call.succeeds (built calls) then accepted calls ++ [call] else accepted calls :=
  Run.select_concat Call.after (fun q call => call.succeeds q) {} calls call

theorem given_concat (calls : List Call) (call : Call) :
    given (calls ++ [call]) = given calls ++ (built calls).reached call.entries := by
  unfold given
  rw [Run.trace_concat, List.flatMap_append, List.flatMap_singleton]
  rfl

/-- **A query shows the calls that have built it**: the entries that have been given, each key once, the sort keys
that have been accepted, and what has been accepted last for the paging. -/
structure BuiltBy (given : Entries) (accepted : List Call) (q : Query) : Prop where
  criteria : given.firsts = q.criteria
  sort : q.sort = accepted.filterMap Call.sortKey?
  skip : q.skip = (accepted.filterMap Call.skip?).getLast?.getD (.int 0)
  limit : q.limit = (accepted.filterMap Call.limit?).getLast?.getD (.int 0)
  accepts : ∀ call ∈ accepted, call.Accepts

theorem filterMap_concat {α : Type} (f : Call → Option α) (calls : List Call) (call : Call) :
    (calls ++ [call]).filterMap f = calls.filterMap f ++ (f call).toList := by
  rw [List.filterMap_append, List.filterMap_cons]
  cases f call <;> rfl

/-- What comes last is what one more call brings, or else what has come last before it. -/
theorem last_concat (f : Call → Option Value) (calls : List Call) (call : Call) (default : Value) :
    ((calls ++ [call]).filterMap f).getLast?.getD default =
      (f call).getD ((calls.filterMap f).getLast?.getD default) := by
  rw [filterMap_concat, List.getLast?_append]
  cases f call <;> rfl

theorem builtBy_calls (calls : List Call) : BuiltBy (given calls) (accepted calls) (built calls) := by
  -- from behind, since the last call meets what the calls before it have built
  induction calls using List.reverseRecOn with
  | nil =>
    refine ⟨rfl, rfl, rfl, rfl, fun call hcall => ?_⟩
    cases hcall
  | append_singleton calls call ih =>
    rw [given_concat, accepted_concat, built_concat]
    have hfirsts := firsts_reached ih.criteria call.entries
    rcases call.outcome (built calls) with ⟨hsucceeds, haccepts, hafter⟩ | ⟨hfails, hafter⟩
    · rw [if_pos hsucceeds, hafter]
      refine ⟨hfirsts, ?_, ?_, ?_, ?_⟩
      · rw [filterMap_concat, ← ih.sort]
      · rw [last_concat, ← ih.skip]
      · rw [last_concat, ← ih.limit]
      · intro other hother
        rcases List.mem_append.mp hother with hother | hother
        · exact ih.accepts other hother
        · rw [List.mem_singleton.mp hother]
          exact haccepts
    · rw [if_neg (by simp [hfails]), hafter]
      exact ⟨hfirsts, ih.sort, ih.skip, ih.limit, ih.accepts⟩

/-- What a query holds at some point it holds from then on. -/
theorem criteria_built_append (calls more : List Call) :
    (built calls).criteria <+: (built (calls ++ more)).criteria := by
  induction more using List.reverseRecOn with
  | nil => exact ⟨[], by rw [List.append_nil, List.append_nil]⟩
  | append_singleton more call ih =>
    rw [← List.append_assoc, built_concat]
    rcases call.outcome (built (calls ++ more)) with ⟨-, -, hafter⟩ | ⟨-, hafter⟩ <;> rw [hafter] <;>
      exact ih.trans (List.prefix_append _ _)

/-! ## The lookup -/

/-- What the calls are made with: sort keys that are texts, and whole numbers for the paging. Criteria and directions
may be anything. -/
def Call.WellTyped : Call → Prop
  | .add _ => True
  | .sortBy key _ => key.text?.isSome = true
  | .withSkip n => n.whole?.isSome = true
  | .withLimit n => n.whole?.isSome = true

/-- An amount that is the last of those accepted, or zero, and is not negative. -/
structure Paged (amounts : List Value) (amount : Value) : Prop where
  last : amount = amounts.getLast?.getD (.int 0)
  nonneg : ∃ n : Nat, amount.whole? = some (n : Int)

/-- The last amount of calls that succeed is a whole number that is not negative. -/
theorem paged_of_accepted {calls : List Call} (h : ∀ call ∈ calls, call.WellTyped ∧ call.Accepts)
    {amount? : Call → Option Value}
    (hamount : ∀ call v, amount? call = some v → call = .withSkip v ∨ call = .withLimit v) :
    Paged (calls.filterMap amount?) ((calls.filterMap amount?).getLast?.getD (.int 0)) := by
  refine ⟨rfl, ?_⟩
  cases hlast : (calls.filterMap amount?).getLast? with
  | none => exact ⟨0, rfl⟩
  | some v =>
    obtain ⟨call, hcall, hv⟩ := List.mem_filterMap.mp (List.mem_of_getLast? hlast)
    have hamount : v.whole?.isSome = true ∧ v.isNegative = .ok false := by
      rcases hamount call v hv with rfl | rfl <;> exact h _ hcall
    obtain ⟨hwhole, hnegative⟩ := hamount
    obtain ⟨n, hn⟩ := Option.isSome_iff_exists.mp hwhole
    rw [Value.isNegative_of_whole hn] at hnegative
    have hnonneg : 0 ≤ n := not_lt.mp (of_decide_eq_false (Except.ok.inj hnegative))
    exact ⟨n.toNat, hn.trans (congrArg some (Int.toNat_of_nonneg hnonneg).symm)⟩

theorem eq_withSkip {call : Call} {v : Value} (h : call.skip? = some v) : call = .withSkip v := by
  cases call with
  | withSkip n => exact congrArg _ (Option.some.inj h)
  | _ => cases h

theorem eq_withLimit {call : Call} {v : Value} (h : call.limit? = some v) : call = .withLimit v := by
  cases call with
  | withLimit n => exact congrArg _ (Option.some.inj h)
  | _ => cases h

theorem eq_sortBy {call : Call} {e : Value × Value} (h : call.sortKey? = some e) : call = .sortBy e.1 e.2 := by
  cases call with
  | sortBy key direction =>
    obtain rfl := Option.some.inj h
    rfl
  | _ => cases h

/-- **A query keeps what is given first and what is accepted last.** Behind any calls, failing ones included, the
criteria are what has been given first for each field, in the order in which the fields have come, and they stay for
ever. Skip and limit are what has been accepted last, and never negative. The order of the lookup can be read: it has
the sort keys in the order in which they were first accepted, each with the number 1 or -1 that equals its last
direction. -/
theorem built_lookup (calls : List Call) (htyped : ∀ call ∈ calls, call.WellTyped) :
    let q := built calls
    let sorts := Entries.named ((accepted calls).filterMap Call.sortKey?)
    q.criteria = (given calls).firsts ∧ (∀ name, q.criteria.get? name = (given calls).get? name) ∧
      (∀ more, q.criteria <+: (built (calls ++ more)).criteria) ∧
      Paged ((accepted calls).filterMap Call.skip?) q.skip ∧ Paged ((accepted calls).filterMap Call.limit?) q.limit ∧
      ∃ object fields, q.sortObject = .ok object ∧ Native.sort (.document object) = .ok fields ∧
        List.Forall₂ (SortsBy sorts) (sorts.map (·.1)).eraseDups fields := by
  intro q sorts
  have hbuilt : BuiltBy (given calls) (accepted calls) q := builtBy_calls calls
  -- a call that is accepted is one of the calls, and has passed its test
  have hkept : ∀ call ∈ accepted calls, call.WellTyped ∧ call.Accepts := fun call hcall =>
    ⟨htyped call (Run.mem_of_mem_select _ hcall), hbuilt.accepts call hcall⟩
  have hsorts : ∀ e ∈ q.sort, e.1.text?.isSome = true ∧ isDirection e.2 = .ok true := by
    intro e he
    rw [hbuilt.sort] at he
    obtain ⟨call, hcall, hsort⟩ := List.mem_filterMap.mp he
    obtain rfl := eq_sortBy hsort
    exact hkept _ hcall
  refine ⟨hbuilt.criteria.symm, fun name => ?_, criteria_built_append calls, ?_, ?_, ?_⟩
  · rw [← hbuilt.criteria, Entries.get?_firsts]
  · rw [hbuilt.skip]
    exact paged_of_accepted hkept fun call v hv => .inl (eq_withSkip hv)
  · rw [hbuilt.limit]
    exact paged_of_accepted hkept fun call v hv => .inr (eq_withLimit hv)
  · have hfields := sort_of_entries (fun e he => (hsorts e he).1) fun e he => (hsorts e he).2
    rw [hbuilt.sort] at hfields
    exact hfields

/-- Calls of every kind, half of which fail: a mapping that repeats a field behind a new one, directions that are none,
negative amounts, and sort keys that repeat with directions of several kinds. -/
theorem built_lookup_of_failing_calls :
    let one : Binary64 := .finite false 4503599627370496 (-52)
    let calls : List Call :=
      [.withSkip (.int 7), .add (.filter (.document [(.text "a", .int 1)])), .sortBy (.text "id") (.bool true),
        .add (.filter (.document [(.text "b", .int 2), (.text "a", .int 3), (.text "c", .int 4)])),
        .sortBy (.text "x") (.int 0), .sortBy (.text "x") .null, .sortBy (.text "x") (.float one),
        .sortBy (.text "id") (.decimal (.finite true 10 (-1))), .withSkip (.int (-1)), .withLimit (.int 5),
        .withSkip (.bool true), .withLimit (.int (-5))]
    (∀ call ∈ calls, call.WellTyped) ∧
      (built calls).criteria = [(.text "a", .int 1), (.text "b", .int 2)] ∧
      Paged [.int 7, .bool true] (built calls).skip ∧ Paged [.int 5] (built calls).limit ∧
      ∃ object fields, (built calls).sortObject = .ok object ∧ Native.sort (.document object) = .ok fields ∧
        List.Forall₂ (SortsBy [("id", .bool true), ("x", .float one), ("id", .decimal (.finite true 10 (-1)))])
          ["id", "x"] fields := by
  intro one calls
  have htyped : ∀ call ∈ calls, call.WellTyped := by
    simp [calls, Call.WellTyped, Value.text?, Value.whole?]
  have haccepted : accepted calls =
      [.withSkip (.int 7), .add (.filter (.document [(.text "a", .int 1)])), .sortBy (.text "id") (.bool true),
        .sortBy (.text "x") (.float one), .sortBy (.text "id") (.decimal (.finite true 10 (-1))),
        .withLimit (.int 5), .withSkip (.bool true)] := rfl
  obtain ⟨hcriteria, -, -, hskip, hlimit, hsort⟩ := built_lookup calls htyped
  rw [haccepted] at hskip hlimit hsort
  exact ⟨htyped, hcriteria, hskip, hlimit, hsort⟩

end Query

end FileDepot
