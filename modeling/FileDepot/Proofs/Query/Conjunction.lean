import FileDepot.Proofs.Query.Additions
import FileDepot.Proofs.Store.Matching
import FileDepot.Proofs.Value.Entries
import FileDepot.Query.Basic
import FileDepot.Query.Native

/-!
# Criteria taken together

A query adds the entries of its parts one after another, and refuses a field that is there already. Both names of
the identifier are taken for fields of their own; in the form that a store executes they are one field, and the
last entry of it is the one that counts.

Contents:

* `Query.ofParts_eq_ok` — the entries of a query are those of its parts, and name each field once;
* `Native.Met`, `Native.accepts_iff_met` — a record satisfies the entries, the last one of the identifier among
  them;
* `Native.met_append`, `Native.met_flatten` — entries taken together.
-/

namespace FileDepot

/-! ## The parts of a query -/

namespace Query

/-- The parts add these entries, part by part. -/
def Adds (parts : List QueryPart) (ess : List Entries) : Prop :=
  List.Forall₂ (fun part es => QueryPart.entries part = .ok es) parts ess

/-- Entries are added unless one of them names a field that is there already. -/
theorem addEntries_eq_ok {q q' : Query} {es : Entries} (h : q.addEntries es = (q', none))
    (hq : q.criteria.Distinct) :
    q' = { q with criteria := q.criteria ++ es } ∧ (q.criteria ++ es).Distinct := by
  obtain ⟨hadded, hnone⟩ := Prod.mk.inj ((addEntries_eq q es).symm.trans h)
  have hall : q.taken es = es := taken_eq_self (Option.map_eq_none_iff.mp hnone)
  have hdistinct := distinct_taken hq es
  rw [hall] at hadded hdistinct
  exact ⟨hadded.symm, hdistinct⟩

theorem addPart_eq_ok {q q' : Query} {part : QueryPart} (h : q.addPart part = (q', none))
    (hq : q.criteria.Distinct) :
    ∃ es, QueryPart.entries part = .ok es ∧ q' = { q with criteria := q.criteria ++ es } ∧
      (q.criteria ++ es).Distinct := by
  rw [addPart] at h
  split at h
  · rename_i es hes
    exact ⟨es, hes, addEntries_eq_ok h hq⟩
  · cases h

/-- A query with one more part, or the failure of adding it. -/
def withPart (q : Query) (part : QueryPart) : Except Failure Query :=
  match q.addPart part with
  | (q, none) => .ok q
  | (_, some e) => .error e

theorem withPart_eq_ok {q q' : Query} {part : QueryPart} (h : q.withPart part = .ok q') :
    q.addPart part = (q', none) := by
  rw [withPart] at h
  split at h
  · rename_i q₁ hadd
    rw [hadd, Except.ok.inj h]
  · cases h

theorem withParts_eq_ok {parts : List QueryPart} {q q' : Query} (h : parts.foldlM withPart q = .ok q')
    (hq : q.criteria.Distinct) :
    ∃ ess, Adds parts ess ∧ Entries.Distinct (q.criteria ++ ess.flatten) ∧
      q' = { q with criteria := q.criteria ++ ess.flatten } := by
  induction parts generalizing q with
  | nil =>
    obtain rfl := Except.ok.inj h
    exact ⟨[], .nil, by simpa using hq, by simp⟩
  | cons part parts ih =>
    rw [List.foldlM_cons] at h
    obtain ⟨next, hnext, h⟩ := bind_eq_ok.mp h
    obtain ⟨es, hes, rfl, hdistinct⟩ := addPart_eq_ok (withPart_eq_ok hnext) hq
    obtain ⟨ess, hess, hall, rfl⟩ := ih h hdistinct
    exact ⟨es :: ess, .cons hes hess, by simpa using hall, by simp⟩

/-- **A query has the entries of its parts**, and names each field once. -/
theorem ofParts_eq_ok {parts : List QueryPart} {q : Query} (h : ofParts parts = .ok q) :
    ∃ ess, Adds parts ess ∧ Entries.Distinct ess.flatten ∧ q = { criteria := ess.flatten } :=
  withParts_eq_ok (q := {}) h .nil

end Query

/-! ## The form that a store executes -/

namespace Native

/-- One entry of a filter in the form that a store executes. -/
def filterEntry (e : Value × Value) : Except Failure (Value × Value) :=
  if isLogical e.1 then (joinedFilters e.2).map fun joined => (e.1, .list joined)
  else (fieldValue (isIdKey e.1) e.2).map fun w => (fieldName e.1, w)

theorem filterEntries_eq (es : Entries) : filterEntries es = es.mapM filterEntry := by
  induction es with
  | nil => rfl
  | cons e es ih =>
    obtain ⟨k, v⟩ := e
    rw [filterEntries, List.mapM_cons, filterEntry, ih]
    split
    · cases joinedFilters v <;> rfl
    · cases fieldValue (isIdKey k) v <;> rfl

theorem isIdKey_fieldName (k : Value) : isIdKey (fieldName k) = isIdKey k := by
  cases h : isIdKey k with
  | true =>
    rw [fieldName, h]
    rfl
  | false =>
    rw [fieldName, h]
    exact h

/-- A key that joins filters is no name of the identifier. -/
theorem isIdKey_of_isLogical {k : Value} (h : isLogical k = true) : isIdKey k = false := by
  simp only [isLogical, Bool.or_eq_true, beq_iff_eq] at h
  rcases h with (h | h) | h <;> simp [isIdKey, h]

theorem key_of_filterEntry {e g : Value × Value} (h : filterEntry e = .ok g) : g.1 = fieldName e.1 := by
  rw [filterEntry] at h
  split at h
  · rename_i hlogical
    obtain ⟨joined, -, rfl⟩ := map_eq_ok.mp h
    simp [fieldName, isIdKey_of_isLogical hlogical]
  · obtain ⟨w, -, rfl⟩ := map_eq_ok.mp h
    rfl

theorem isIdKey_eq_false {k : Value} (h : isIdKey k = false) : (k.text? == some "_id") = false := by
  simp only [isIdKey, Bool.or_eq_false_iff] at h
  exact h.2

/-- Two fields are one in this form only if both name the identifier. -/
theorem same_fieldName {k k' : Value} (h : k.same k' = false) :
    (fieldName k).same (fieldName k') = (isIdKey k && isIdKey k') := by
  cases hk : isIdKey k with
  | true =>
    cases hk' : isIdKey k' with
    | true =>
      rw [fieldName, fieldName, hk, hk', if_pos rfl, if_pos rfl, Value.same_text]
      rfl
    | false =>
      rw [fieldName, fieldName, hk, hk']
      exact isIdKey_eq_false hk'
  | false =>
    cases hk' : isIdKey k' with
    | true =>
      rw [fieldName, fieldName, hk, hk', if_pos rfl, Value.same_text]
      exact isIdKey_eq_false hk
    | false =>
      rw [fieldName, fieldName, hk, hk']
      exact h

/-- **Only the identifier is named twice.** -/
theorem repeatsOnly {es gs : Entries} (hdistinct : es.Distinct) (h : filterEntries es = .ok gs) :
    gs.RepeatsOnly isIdKey := by
  rw [filterEntries_eq] at h
  have hkeys : gs.map Prod.fst = es.map fun e => fieldName e.1 :=
    map_of_mapM (fun e g hg => key_of_filterEntry hg) h
  constructor
  · rw [hkeys, List.pairwise_map]
    refine (List.pairwise_map.mp hdistinct).imp fun {e e'} hne => ?_
    rw [isIdKey_fieldName, isIdKey_fieldName]
    exact same_fieldName hne
  · have hid : ∀ g ∈ gs, isIdKey g.1 = true → g.1 = .text "_id" := by
      intro g hg hname
      obtain ⟨e, -, he⟩ := exists_of_mem_mapM h hg
      rw [key_of_filterEntry he, isIdKey_fieldName] at hname
      rw [key_of_filterEntry he, fieldName, hname]
      rfl
    intro g hg g' hg' hname hname'
    rw [hid g hg hname, hid g' hg' hname']

/-! ## The entries that count -/

/-- The record satisfies one entry of a filter in the form that a store executes. -/
def EntryMet (engine : Engine) (record : Value) (e : Value × Value) : Prop :=
  ∃ g, filterEntry e = .ok g ∧ Filter.entryAccepts engine record g = .ok true

theorem entryMet_iff {engine : Engine} {record : Value} {e g : Value × Value} (h : filterEntry e = .ok g) :
    EntryMet engine record e ↔ Filter.entryAccepts engine record g = .ok true := by
  constructor
  · rintro ⟨g', hg', haccepts⟩
    obtain rfl := Except.ok.inj (h.symm.trans hg')
    exact haccepts
  · exact fun haccepts => ⟨g, h, haccepts⟩

/-- The record satisfies the entries that count: those of other fields, and the last one that names the
identifier. -/
def Met (engine : Engine) (record : Value) (es : Entries) : Prop :=
  (∀ e ∈ es, isIdKey e.1 = false → EntryMet engine record e) ∧
    ∀ e, es.last? isIdKey = some e → EntryMet engine record e

/-- The last entry that names the identifier is the last that does so in the form that a store executes. -/
theorem last?_filterEntries {es gs : Entries} (h : filterEntries es = .ok gs) :
    (es.last? isIdKey = none ∧ gs.last? isIdKey = none) ∨
      ∃ e g, es.last? isIdKey = some e ∧ gs.last? isIdKey = some g ∧ filterEntry e = .ok g := by
  rw [filterEntries_eq] at h
  have hall := mapM_eq_ok.mp h
  clear h
  induction hall with
  | nil => exact .inl ⟨rfl, rfl⟩
  | @cons e g es gs he _ ih =>
    have hid : isIdKey g.1 = isIdKey e.1 := by rw [key_of_filterEntry he, isIdKey_fieldName]
    rw [← List.singleton_append, ← List.singleton_append (x := g), Entries.last?_append,
      Entries.last?_append]
    rcases ih with ⟨hes, hgs⟩ | ⟨last, last', hes, hgs, hlast⟩
    · rw [hes, hgs]
      cases hkey : isIdKey e.1 with
      | true => exact .inr ⟨e, g, by simp [Entries.last?, hkey], by simp [Entries.last?, hid, hkey], he⟩
      | false => exact .inl ⟨by simp [Entries.last?, hkey], by simp [Entries.last?, hid, hkey]⟩
    · exact .inr ⟨last, last', by simp [hes], by simp [hgs], hlast⟩

/-- **A record satisfies entries in the form that a store executes exactly if it satisfies those that
count.** -/
theorem accepts_iff_met {engine : Engine} {record : Value} {es gs : Entries} (hdistinct : es.Distinct)
    (h : filterEntries es = .ok gs) :
    Filter.accepts engine record (Entries.ofPairs gs) = .ok true ↔ Met engine record es := by
  have hentries := h
  rw [filterEntries_eq] at hentries
  have hother : (∀ g ∈ gs, isIdKey g.1 = false → Filter.entryAccepts engine record g = .ok true) ↔
      ∀ e ∈ es, isIdKey e.1 = false → EntryMet engine record e := by
    constructor
    · intro hgs e he hkey
      obtain ⟨g, hg, hfilter⟩ := exists_answer_of_mapM hentries he
      refine (entryMet_iff hfilter).mpr (hgs g hg ?_)
      rw [key_of_filterEntry hfilter, isIdKey_fieldName, hkey]
    · intro hes g hg hkey
      obtain ⟨e, he, hfilter⟩ := exists_of_mem_mapM hentries hg
      rw [key_of_filterEntry hfilter, isIdKey_fieldName] at hkey
      exact (entryMet_iff hfilter).mp (hes e he hkey)
  have hid : (∀ g, gs.last? isIdKey = some g → Filter.entryAccepts engine record g = .ok true) ↔
      ∀ e, es.last? isIdKey = some e → EntryMet engine record e := by
    rcases last?_filterEntries h with ⟨hes, hgs⟩ | ⟨e, g, hes, hgs, hfilter⟩
    · simp [hes, hgs]
    · simp [hes, hgs, entryMet_iff hfilter]
  rw [Filter.accepts_eq_true_iff, Met, ← hother, ← hid]
  simp only [Entries.mem_ofPairs_iff (repeatsOnly hdistinct h)]
  constructor
  · intro hall
    exact ⟨fun g hg hkey => hall g (.inl ⟨hg, hkey⟩), fun g hlast => hall g (.inr hlast)⟩
  · rintro ⟨hother, hlast⟩ g (⟨hg, hkey⟩ | hg)
    · exact hother g hg hkey
    · exact hlast g hg

/-! ## Entries taken together -/

/-- Some entry names the identifier. -/
def namesId (es : Entries) : Bool :=
  es.any fun e => isIdKey e.1

/-- The entries that do not name the identifier. -/
def withoutId (es : Entries) : Entries :=
  es.filter fun e => !isIdKey e.1

/-- The entries of each list that count when the lists are taken together: those that name the identifier do
not, where a later list has such entries too. -/
def counted : List Entries → List Entries
  | [] => []
  | es :: ess => (if ess.any namesId then withoutId es else es) :: counted ess

theorem last?_eq_none_iff {es : Entries} : es.last? isIdKey = none ↔ namesId es = false := by
  simp [Entries.last?, namesId]

theorem withoutId_eq_self {es : Entries} (h : namesId es = false) : withoutId es = es := by
  refine List.filter_eq_self.mpr fun e he => ?_
  rw [namesId, List.any_eq_false] at h
  simpa using h e he

/-- Of entries that do not name the identifier all count. -/
theorem met_withoutId {engine : Engine} {record : Value} {es : Entries} :
    Met engine record (withoutId es) ↔ ∀ e ∈ es, isIdKey e.1 = false → EntryMet engine record e := by
  have hlast : (withoutId es).last? isIdKey = none := by
    rw [last?_eq_none_iff, namesId, withoutId, List.any_eq_false]
    intro e he
    simpa using (List.mem_filter.mp he).2
  rw [Met, hlast]
  constructor
  · rintro ⟨hother, -⟩ e he hkey
    exact hother e (List.mem_filter.mpr ⟨he, by simp [hkey]⟩) hkey
  · intro hother
    exact ⟨fun e he hkey => hother e (List.mem_of_mem_filter he) hkey, by simp⟩

/-- Of two lists of entries, those of the first that name the identifier count only if the second has none. -/
theorem met_append {engine : Engine} {record : Value} {es es' : Entries} :
    Met engine record (es ++ es') ↔
      Met engine record (if namesId es' then withoutId es else es) ∧ Met engine record es' := by
  have hother : (∀ e ∈ es ++ es', isIdKey e.1 = false → EntryMet engine record e) ↔
      (∀ e ∈ es, isIdKey e.1 = false → EntryMet engine record e) ∧
        ∀ e ∈ es', isIdKey e.1 = false → EntryMet engine record e := by
    simp only [List.forall_mem_append]
  rw [Met, Entries.last?_append, hother]
  -- the last entry that names the identifier is in the second list, if that one has any
  cases hid : namesId es' with
  | false =>
    rw [last?_eq_none_iff.mpr hid, Option.none_or, if_neg (by simp), Met, Met, last?_eq_none_iff.mpr hid]
    constructor
    · rintro ⟨⟨hes, hes'⟩, hlast⟩
      exact ⟨⟨hes, hlast⟩, hes', by simp⟩
    · rintro ⟨⟨hes, hlast⟩, hes', -⟩
      exact ⟨⟨hes, hes'⟩, hlast⟩
  | true =>
    obtain ⟨last, hlast⟩ : ∃ last, es'.last? isIdKey = some last := by
      rw [← Option.ne_none_iff_exists', ne_eq, last?_eq_none_iff, hid]
      simp
    rw [hlast, Option.some_or, if_pos rfl, met_withoutId, Met, hlast]
    exact and_assoc

/-- **Lists of entries taken together**: a record satisfies them exactly if it satisfies of each the entries that
count. -/
theorem met_flatten {engine : Engine} {record : Value} {ess : List Entries} :
    Met engine record ess.flatten ↔ ∀ es ∈ counted ess, Met engine record es := by
  induction ess with
  | nil => simp [counted, Met, Entries.last?]
  | cons es ess ih =>
    have hid : namesId ess.flatten = ess.any namesId := by
      rw [namesId, List.any_flatten]
      rfl
    rw [List.flatten_cons, met_append, ih, counted, List.forall_mem_cons, hid]

end Native

end FileDepot
