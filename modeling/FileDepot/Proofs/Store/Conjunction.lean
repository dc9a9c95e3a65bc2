import FileDepot.Proofs.Query.Conjunction
import FileDepot.Proofs.Store.Removal

/-!
# What several criteria find

A lookup with several criteria lists the files that each of them lists alone, in the order of the bucket. The
identifier is the exception: where two criteria constrain it under its two names, only the last of them counts.

Contents:

* `Query.counted` — what counts of each criterion;
* `Template.Selects`, `Template.Lists` — the files of a bucket that are listed, and those that a criterion lists
  alone;
* `Template.find_ofEntries` — what a query of given entries finds;
* `Template.find_of_parts` — what several criteria find.
-/

namespace FileDepot

/-! ## What counts -/

namespace Query

/-- The part constrains the identifier under one of its names. -/
def namesId (part : QueryPart) : Bool :=
  match QueryPart.entries part with
  | .ok es => Native.namesId es
  | .error _ => false

/-- A filter with what the part asks of other fields than the identifier. -/
def withoutId (part : QueryPart) : QueryPart :=
  match QueryPart.entries part with
  | .ok es => .filter (.document (Native.withoutId es))
  | .error _ => part

/-- What counts of each part: where a later part constrains the identifier too, what it asks of other fields, and
otherwise all of it. -/
def counted : List QueryPart → List QueryPart
  | [] => []
  | part :: parts => (if namesId part && parts.any namesId then withoutId part else part) :: counted parts

/-- No two parts constrain the identifier. -/
def IdOnce (parts : List QueryPart) : Prop :=
  parts.Pairwise fun part part' => (namesId part && namesId part') = false

/-- If no two parts constrain the identifier, each counts. -/
theorem counted_eq_self {parts : List QueryPart} (h : IdOnce parts) : counted parts = parts := by
  induction parts with
  | nil => rfl
  | cons part parts ih =>
    obtain ⟨hfirst, hrest⟩ := List.pairwise_cons.mp h
    have hkept : (namesId part && parts.any namesId) = false := by
      cases hpart : namesId part with
      | false => rfl
      | true =>
        rw [Bool.true_and, List.any_eq_false]
        intro part' hpart'
        simpa [hpart] using hfirst part' hpart'
    rw [counted, hkept, ih hrest, if_neg (by simp)]

/-- The parts as they count add the entries that count. -/
theorem adds_counted {parts : List QueryPart} {ess : List Entries} (h : Adds parts ess) :
    Adds (counted parts) (Native.counted ess) := by
  induction h with
  | nil => exact .nil
  | @cons part es parts ess hes hess ih =>
    have hpart : namesId part = Native.namesId es := by rw [namesId, hes]
    have hparts : parts.any namesId = ess.any Native.namesId := by
      clear ih
      induction hess with
      | nil => rfl
      | @cons part' es' parts ess hes' _ ih =>
        have hpart' : namesId part' = Native.namesId es' := by rw [namesId, hes']
        rw [List.any_cons, List.any_cons, hpart', ih]
    refine .cons ?_ ih
    rw [hpart, hparts]
    -- a part that does not name the identifier adds the same entries without those that do
    cases hlater : ess.any Native.namesId with
    | false => simpa using hes
    | true =>
      cases hid : Native.namesId es with
      | false =>
        rw [Native.withoutId_eq_self hid]
        exact hes
      | true =>
        rw [Bool.and_self, if_pos rfl, if_pos rfl, withoutId, hes]
        rfl

end Query

/-! ## What is found -/

namespace Template

/-- The listed files are those of the given ones that have the property, in their order. -/
def Selects (files listed : List StoredFile) (P : StoredFile → Prop) : Prop :=
  ∃ p : StoredFile → Bool, (∀ f ∈ files, p f = true ↔ P f) ∧ listed = files.filter p

theorem Selects.mem_iff {files listed : List StoredFile} {P : StoredFile → Prop} (h : Selects files listed P)
    {f : StoredFile} (hf : f ∈ files) : f ∈ listed ↔ P f := by
  obtain ⟨p, hp, rfl⟩ := h
  rw [List.mem_filter, hp f hf]
  exact and_iff_right hf

theorem Selects.congr {files listed : List StoredFile} {P Q : StoredFile → Prop} (h : Selects files listed P)
    (hPQ : ∀ f ∈ files, P f ↔ Q f) : Selects files listed Q := by
  obtain ⟨p, hp, rfl⟩ := h
  exact ⟨p, fun f hf => (hp f hf).trans (hPQ f hf), rfl⟩

variable {t : Template} {s : Store}

/-- **What a query of given entries finds**: the files that satisfy the entries that count. -/
theorem find_ofEntries {es : Entries} (hdistinct : es.Distinct) {cursor : Cursor}
    (h : ((t.find (some { criteria := es })).run s).1 = .ok cursor) :
    Selects (s.bucket t.bucketName).files cursor.files fun f => Native.Met s.engine f.document es := by
  obtain ⟨hsent, hfiles⟩ := find_eq_ok h
  obtain ⟨lookup, hlookup, htold⟩ := bind_eq_ok.mp hsent
  obtain ⟨-, -, rfl⟩ := map_eq_ok.mp htold
  obtain ⟨filter, hfilter, hlookup⟩ := bind_eq_ok.mp hlookup
  obtain ⟨gs, hgs, rfl⟩ := map_eq_ok.mp hfilter
  -- nothing is sorted and nothing is paged
  have hlookup : cursor.lookup = { filter := Entries.ofPairs gs } := (Except.ok.inj hlookup).symm
  rw [hlookup] at hfiles
  obtain ⟨found, hfound, sorted, hsorted, rest, hrest, hlisted⟩ := Bucket.lookup_eq_ok.mp hfiles
  obtain rfl := Except.ok.inj hsorted
  obtain rfl := Except.ok.inj hrest
  obtain rfl := Except.ok.inj hlisted
  obtain ⟨p, hp, hfiles⟩ := Filter.select_eq_ok.mp hfound
  refine ⟨p, fun f hf => ?_, hfiles⟩
  refine Iff.trans ?_ (Native.accepts_iff_met hdistinct hgs)
  rw [hp f hf]
  simp

/-- The answer of the lookup for a query of the given parts. -/
def findParts (t : Template) (s : Store) (parts : List QueryPart) : Except Failure Cursor := do
  ((t.find (some (← Query.ofParts parts))).run s).1

/-- The lookup of the part alone succeeds. -/
def Answers (t : Template) (s : Store) (part : QueryPart) : Prop :=
  ∃ cursor, t.findParts s [part] = .ok cursor

/-- The lookup of the part alone succeeds and lists the file. -/
def Lists (t : Template) (s : Store) (part : QueryPart) (f : StoredFile) : Prop :=
  ∃ cursor, t.findParts s [part] = .ok cursor ∧ f ∈ cursor.files

/-- What parts find are the files that satisfy those of their entries that count. -/
theorem findParts_eq_ok {parts : List QueryPart} {cursor : Cursor} (h : t.findParts s parts = .ok cursor) :
    ∃ ess, Query.Adds parts ess ∧
      Selects (s.bucket t.bucketName).files cursor.files fun f => Native.Met s.engine f.document ess.flatten := by
  obtain ⟨q, hq, hcursor⟩ := bind_eq_ok.mp h
  obtain ⟨ess, hess, hdistinct, rfl⟩ := Query.ofParts_eq_ok hq
  exact ⟨ess, hess, find_ofEntries hdistinct hcursor⟩

/-- A part lists the files that satisfy its entries. -/
theorem lists_iff_met {part : QueryPart} {es : Entries} (hes : Query.QueryPart.entries part = .ok es)
    (hanswers : Answers t s part) {f : StoredFile} (hf : f ∈ (s.bucket t.bucketName).files) :
    Lists t s part f ↔ Native.Met s.engine f.document es := by
  obtain ⟨cursor, hcursor⟩ := hanswers
  obtain ⟨ess, hess, hselects⟩ := findParts_eq_ok hcursor
  obtain rfl : ess = [es] := by
    cases hess with
    | cons hes' hrest =>
      cases hrest
      rw [Except.ok.inj (hes.symm.trans hes')]
  rw [List.flatten_singleton] at hselects
  rw [← hselects.mem_iff hf]
  constructor
  · rintro ⟨cursor', hcursor', hf⟩
    obtain rfl := Except.ok.inj (hcursor.symm.trans hcursor')
    exact hf
  · exact fun hf => ⟨cursor, hcursor, hf⟩

/-- What all parts list satisfies the entries of each. -/
theorem lists_all_iff_met {parts : List QueryPart} {ess : List Entries} (h : Query.Adds parts ess)
    (hanswers : ∀ part ∈ parts, Answers t s part) {f : StoredFile}
    (hf : f ∈ (s.bucket t.bucketName).files) :
    (∀ part ∈ parts, Lists t s part f) ↔ ∀ es ∈ ess, Native.Met s.engine f.document es := by
  induction h with
  | nil => simp
  | cons hes _ ih =>
    obtain ⟨hpart, hparts⟩ := List.forall_mem_cons.mp hanswers
    rw [List.forall_mem_cons, List.forall_mem_cons, lists_iff_met hes hpart hf, ih hparts]

/-- What counts of several parts finds, part by part, what they find together. -/
theorem selects_counted {parts : List QueryPart} {cursor : Cursor} (h : t.findParts s parts = .ok cursor)
    (hanswers : ∀ part ∈ Query.counted parts, Answers t s part) :
    Selects (s.bucket t.bucketName).files cursor.files
      fun f => ∀ part ∈ Query.counted parts, Lists t s part f := by
  obtain ⟨ess, hess, hselects⟩ := findParts_eq_ok h
  refine hselects.congr fun f hf => ?_
  rw [Native.met_flatten, lists_all_iff_met (Query.adds_counted hess) hanswers hf]

/-- **What several criteria find.** If no two of them constrain the identifier, these are the files that each of
    them lists alone, in the order of the bucket. If some do, the same holds of what counts of each: of the
    criteria for the identifier only the last one does. -/
theorem find_of_parts {parts : List QueryPart} {cursor : Cursor} (h : t.findParts s parts = .ok cursor) :
    (Query.IdOnce parts → (∀ part ∈ parts, Answers t s part) →
      Selects (s.bucket t.bucketName).files cursor.files fun f => ∀ part ∈ parts, Lists t s part f) ∧
    ((∀ part ∈ Query.counted parts, Answers t s part) →
      Selects (s.bucket t.bucketName).files cursor.files
        fun f => ∀ part ∈ Query.counted parts, Lists t s part f) := by
  refine ⟨fun honce hanswers => ?_, selects_counted h⟩
  have hcounted := selects_counted h
  rw [Query.counted_eq_self honce] at hcounted
  exact hcounted hanswers

/-- Of two files a query asks for the first by `id`, and under `_id` for those that have an identifier. Alone the
first criterion lists one file; together they list both, as only the second counts. Beside a criterion for another
field the first counts. -/
theorem find_of_both_names :
    let uploads : List Store.Action := [.upload "fs" (.text "a") [1] none .null,
      .upload "fs" (.text "b") [2] none .null]
    let s := uploads.foldl Store.Action.after {}
    let t : Template := {}
    let anything : Value := .document [(.text "$exists", .bool true)]
    let first : QueryPart := .criterion { key := .text "id", condition := .equals (.objectId ⟨1⟩) }
    let present : QueryPart := .filter (.document [(.text "_id", anything)])
    let named : QueryPart := .filter (.document [(.text "filename", anything)])
    let ids (parts : List QueryPart) : Except Failure (List Nat) :=
      (t.findParts s parts).map fun cursor => cursor.files.map (·.id.value)
    ids [first] = .ok [1] ∧ ids [first, present] = .ok [1, 2] ∧ ids [first, named] = .ok [1] ∧
      ∃ both one, t.findParts s [first, present] = .ok both ∧ t.findParts s [first, named] = .ok one ∧
        Selects (s.bucket "fs").files both.files
          (fun f => ∀ part ∈ Query.counted [first, present], Lists t s part f) ∧
        Selects (s.bucket "fs").files one.files (fun f => ∀ part ∈ [first, named], Lists t s part f) := by
  intro uploads s t anything first present named ids
  have hfound {parts : List QueryPart} {found : List Nat} (h : ids parts = .ok found) :
      ∃ cursor, t.findParts s parts = .ok cursor := by
    obtain ⟨cursor, hcursor, -⟩ := map_eq_ok.mp h
    exact ⟨cursor, hcursor⟩
  have hfirst : ids [first] = .ok [1] := by decide +kernel
  have hpresent : ids [present] = .ok [1, 2] := by decide +kernel
  have hnamed : ids [named] = .ok [1, 2] := by decide +kernel
  have hnothing : ids [.filter (.document [])] = .ok [1, 2] := by decide +kernel
  have hboth : ids [first, present] = .ok [1, 2] := by decide +kernel
  have hone : ids [first, named] = .ok [1] := by decide +kernel
  have hcounted : Query.counted [first, present] = [.filter (.document []), present] := by rfl
  have honce : Query.IdOnce [first, named] := .cons (by simp; decide +kernel) (.cons (by simp) .nil)
  obtain ⟨both, hcursor⟩ := hfound hboth
  obtain ⟨one, hcursor'⟩ := hfound hone
  refine ⟨hfirst, hboth, hone, both, one, hcursor, hcursor', ?_, ?_⟩
  · refine (find_of_parts hcursor).2 ?_
    simpa [hcounted] using ⟨hfound hnothing, hfound hpresent⟩
  · refine (find_of_parts hcursor').1 honce ?_
    simpa using ⟨hfound hfirst, hfound hnamed⟩

end Template

end FileDepot
