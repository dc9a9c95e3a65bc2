import FileDepot.Proofs.Value.Entries
import FileDepot.Query.Basic

/-!
# Criteria added to a query

An addition takes the entries of a part one after another, up to the first whose field has a criterion already. There
it is refused, and what it has taken before stays in the query.

Contents:

* `Query.withEntries`, `Query.taken`, `Query.refused?` — the entries that are taken, and the one that is refused;
* `Query.addEntries_eq` — an addition of entries by these two;
* `Query.distinct_taken`, `Query.taken_new`, `Query.constrains_refused` — the taken entries are new, the refused one is
  not;
* `Query.addPart_criterion` — a criterion is added or refused as a whole;
* `Query.addPart_refused` — what a refused addition leaves behind.
-/

namespace FileDepot.Query

/-- The query with more entries among its criteria. -/
def withEntries (q : Query) (es : Entries) : Query :=
  { q with criteria := q.criteria ++ es }

theorem withEntries_nil (q : Query) : q.withEntries [] = q := by
  unfold withEntries
  rw [List.append_nil]

theorem withEntries_withEntries (q : Query) (es es' : Entries) :
    (q.withEntries es).withEntries es' = q.withEntries (es ++ es') := by
  show ({ q with criteria := q.criteria ++ es ++ es' } : Query) = { q with criteria := q.criteria ++ (es ++ es') }
  rw [List.append_assoc]

theorem constrains_withEntries (q : Query) (es : Entries) (key : Value) :
    (q.withEntries es).constrains key = (q.constrains key || es.any fun e => e.1.same key) :=
  List.any_append

/-! ## What is taken and what is refused -/

/-- The entries in front of the first whose field has a criterion, in the query or among the entries in front. -/
def taken (q : Query) : Entries → Entries
  | [] => []
  | e :: es => if q.constrains e.1 then [] else e :: taken (q.withEntries [e]) es

/-- The first entry that is not taken. -/
def refused? (q : Query) (es : Entries) : Option (Value × Value) :=
  (es.drop (q.taken es).length).head?

/-- The failure of an addition to a field that has a criterion. -/
def fieldTaken (key : Value) : Failure :=
  .invalid s!"Query already contains criteria for '{key.shown}'"

variable {q : Query} {e : Value × Value} {es : Entries}

theorem taken_of_constrains (h : q.constrains e.1 = true) : q.taken (e :: es) = [] := by
  rw [taken, if_pos h]

theorem taken_of_new (h : q.constrains e.1 = false) : q.taken (e :: es) = e :: (q.withEntries [e]).taken es := by
  rw [taken, if_neg (by simp [h])]

theorem refused?_of_constrains (h : q.constrains e.1 = true) : q.refused? (e :: es) = some e := by
  unfold refused?
  rw [taken_of_constrains h]
  rfl

theorem refused?_of_new (h : q.constrains e.1 = false) :
    q.refused? (e :: es) = (q.withEntries [e]).refused? es := by
  unfold refused?
  rw [taken_of_new h]
  rfl

/-- **An addition takes the entries in front of the one that is refused**, whether or not there is one. -/
theorem addEntries_eq (q : Query) (es : Entries) :
    q.addEntries es = (q.withEntries (q.taken es), (q.refused? es).map fun e => fieldTaken e.1) := by
  induction es generalizing q with
  | nil =>
    show (q, none) = (q.withEntries [], none)
    rw [withEntries_nil]
  | cons e es ih =>
    cases h : q.constrains e.1 with
    | true =>
      rw [addEntries, if_pos h, taken_of_constrains h, refused?_of_constrains h, withEntries_nil]
      rfl
    | false =>
      have hrest := ih (q.withEntries [e])
      rw [addEntries, if_neg (by simp [h]), taken_of_new h, refused?_of_new h]
      rw [withEntries_withEntries] at hrest
      exact hrest

/-- The taken entries are a start of the entries, and the refused one comes next. -/
theorem eq_of_refused? (h : q.refused? es = some e) : ∃ behind, es = q.taken es ++ e :: behind := by
  induction es generalizing q with
  | nil => cases h
  | cons f es ih =>
    cases hf : q.constrains f.1 with
    | true =>
      rw [refused?_of_constrains hf] at h
      obtain rfl := Option.some.inj h
      rw [taken_of_constrains hf]
      exact ⟨es, rfl⟩
    | false =>
      rw [refused?_of_new hf] at h
      obtain ⟨behind, hbehind⟩ := ih h
      rw [taken_of_new hf]
      exact ⟨behind, congrArg (f :: ·) hbehind⟩

/-- Where no entry is refused all are taken. -/
theorem taken_eq_self (h : q.refused? es = none) : q.taken es = es := by
  induction es generalizing q with
  | nil => rfl
  | cons e es ih =>
    cases hnew : q.constrains e.1 with
    | true =>
      rw [refused?_of_constrains hnew] at h
      cases h
    | false =>
      rw [refused?_of_new hnew] at h
      rw [taken_of_new hnew, ih h]

/-- With the taken entries the criteria still name each field once. -/
theorem distinct_taken (hq : q.criteria.Distinct) (es : Entries) : (q.criteria ++ q.taken es).Distinct := by
  induction es generalizing q with
  | nil =>
    show (q.criteria ++ []).Distinct
    rw [List.append_nil]
    exact hq
  | cons e es ih =>
    cases hnew : q.constrains e.1 with
    | true =>
      rw [taken_of_constrains hnew, List.append_nil]
      exact hq
    | false =>
      have hdiffers : ∀ f ∈ q.criteria, f.1.same e.1 = false := by
        intro f hf
        exact Bool.eq_false_iff.mpr (List.any_eq_false.mp hnew f hf)
      have hrest := ih (show (q.withEntries [e]).criteria.Distinct from Entries.distinct_concat.mpr ⟨hq, hdiffers⟩)
      rw [taken_of_new hnew]
      unfold withEntries at hrest ⊢
      rw [List.append_assoc] at hrest
      exact hrest

/-- No field of a taken entry has had a criterion. -/
theorem taken_new (q : Query) (es : Entries) : ∀ e ∈ q.taken es, q.constrains e.1 = false := by
  induction es generalizing q with
  | nil =>
    intro e he
    cases he
  | cons e es ih =>
    intro f hf
    cases h : q.constrains e.1 with
    | true =>
      rw [taken_of_constrains h] at hf
      cases hf
    | false =>
      rw [taken_of_new h] at hf
      rcases List.mem_cons.mp hf with rfl | hf
      · exact h
      · -- what is new to the longer query is new to the shorter one
        have hnew := ih _ f hf
        rw [constrains_withEntries, Bool.or_eq_false_iff] at hnew
        exact hnew.1

/-- The field of the refused entry has a criterion by then. -/
theorem constrains_refused (h : q.refused? es = some e) : (q.withEntries (q.taken es)).constrains e.1 = true := by
  induction es generalizing q with
  | nil => cases h
  | cons f es ih =>
    cases hf : q.constrains f.1 with
    | true =>
      rw [refused?_of_constrains hf] at h
      obtain rfl := Option.some.inj h
      rw [taken_of_constrains hf, withEntries_nil]
      exact hf
    | false =>
      rw [refused?_of_new hf] at h
      have hrest := ih h
      rw [withEntries_withEntries] at hrest
      rw [taken_of_new hf]
      exact hrest

/-! ## Refused additions -/

/-- A criterion is on one field, so that its addition is refused as a whole. -/
theorem addPart_criterion {q q' : Query} {c : Criterion} {failure : Failure}
    (h : q.addPart (.criterion c) = (q', some failure)) : q' = q := by
  have hentries : QueryPart.entries (.criterion c) = c.document := rfl
  rw [addPart, hentries, Criterion.document] at h
  by_cases hhashable : c.key.hashable = true
  · rw [if_pos hhashable] at h
    obtain ⟨rfl, hrefused⟩ := Prod.mk.inj ((addEntries_eq q _).symm.trans h)
    cases hold : q.constrains c.key with
    | true => rw [taken_of_constrains hold, withEntries_nil]
    | false =>
      -- the only entry is taken, and none is left to be refused
      rw [refused?_of_new hold] at hrefused
      cases hrefused
  · rw [if_neg hhashable] at h
    exact (Prod.mk.inj h).1.symm

/-- **A refused addition leaves what stands in front of the refused entry.** If the part cannot be read as entries the
query stays as it is. Otherwise the addition is refused at the first entry whose field has a criterion, which is named;
the entries in front of it are all taken, and nothing else has changed. So the query is as it was exactly if the refused
entry is the first one. -/
theorem addPart_refused {q q' : Query} {part : QueryPart} {failure : Failure}
    (h : q.addPart part = (q', some failure)) :
    (QueryPart.entries part = .error failure ∧ q' = q) ∨
      ∃ front e behind, QueryPart.entries part = .ok (front ++ e :: behind) ∧
        failure = .invalid s!"Query already contains criteria for '{e.1.shown}'" ∧
        (∀ f ∈ front, q.constrains f.1 = false) ∧ q'.constrains e.1 = true ∧
        q' = { q with criteria := q.criteria ++ front } ∧ (q' = q ↔ front = []) := by
  unfold addPart at h
  cases hes : QueryPart.entries part with
  | error reason =>
    rw [hes] at h
    obtain ⟨rfl, hfailure⟩ := Prod.mk.inj h
    obtain rfl := Option.some.inj hfailure
    exact .inl ⟨rfl, rfl⟩
  | ok es =>
    rw [hes] at h
    have hadded : (q.withEntries (q.taken es), (q.refused? es).map fun e => fieldTaken e.1) = (q', some failure) :=
      (addEntries_eq q es).symm.trans h
    obtain ⟨rfl, hfailure⟩ := Prod.mk.inj hadded
    obtain ⟨e, he, rfl⟩ := Option.map_eq_some_iff.mp hfailure
    obtain ⟨behind, hparts⟩ := eq_of_refused? he
    have hsame : q.withEntries (q.taken es) = q ↔ q.taken es = [] := by
      constructor
      · intro hq
        exact List.append_right_eq_self.mp (congrArg criteria hq)
      · intro hnone
        rw [hnone, withEntries_nil]
    refine .inr ⟨q.taken es, e, behind, congrArg Except.ok hparts, rfl, taken_new q es, ?_, rfl, hsame⟩
    exact constrains_refused he

/-- A mapping with a new field in front of one that has a criterion: the new field stays in the query. -/
theorem addPart_refused_behind_new_field :
    let q : Query := { criteria := [(.text "a", .int 1)] }
    let q' : Query := { criteria := [(.text "a", .int 1), (.text "b", .int 2)] }
    let part : QueryPart := .filter (.document [(.text "b", .int 2), (.text "a", .int 3)])
    let failure : Failure := .invalid "Query already contains criteria for 'a'"
    q.addPart part = (q', some failure) ∧
      ∃ front e behind, QueryPart.entries part = .ok (front ++ e :: behind) ∧
        failure = .invalid s!"Query already contains criteria for '{e.1.shown}'" ∧ q'.constrains e.1 = true ∧
        q' = { q with criteria := q.criteria ++ front } ∧ ¬ q' = q := by
  intro q q' part failure
  have hadd : q.addPart part = (q', some failure) := rfl
  refine ⟨hadd, ?_⟩
  rcases addPart_refused hadd with ⟨hentries, -⟩ | ⟨front, e, behind, hentries, hfailure, -, hkey, hq, hsame⟩
  · cases hentries
  · refine ⟨front, e, behind, hentries, hfailure, hkey, hq, fun hunchanged => ?_⟩
    have hlength := congrArg (List.length ∘ criteria) hunchanged
    simp [q, q'] at hlength

end FileDepot.Query
