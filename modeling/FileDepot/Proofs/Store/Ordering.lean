import FileDepot.Proofs.Query.Sorting
import FileDepot.Proofs.Store.Lookups
import FileDepot.Proofs.Value.Ordering
import Mathlib.Data.Int.Order.Basic
import Mathlib.Data.String.Basic

/-!
# Order and pages of a lookup

A lookup with sort keys lists every file that its filter accepts, once, in the order of the keys: the first key
decides, each key in its own direction, and files that no key tells apart stand in the order of their uploads.
Pages of one size, one after another, give the same files in the same order.

Contents:

* `Sorting.byField`, `Sorting.InOrder`, `Sorting.sortRecords_inOrder` — records in the order of several fields;
* `Sorting.orders_of_key` — fields that are in order;
* `Sorting.flatMap_pages` — pages one after another;
* `Query.page`, `Query.page_eq` — a page of a query;
* `Template.find_orders_and_pages` — what a query with sort keys lists, at once and by pages.
-/

namespace FileDepot

/-! ## Values in order -/

namespace Value

theorem precedes_of_text {a b : Value} {s t : String} (ha : a.text? = some s) (hb : b.text? = some t) :
    a.precedes b = .ok (decide (s < t)) := by
  have hprecedes : a.precedes b = textPrecedes s b := by
    cases a <;> simp_all [text?, precedes]
  rw [hprecedes, textPrecedes, hb]

end Value

/-! ## Records in the order of fields -/

namespace Sorting

section

variable {α : Type} (record : α → Value)

/-- The field of a record. -/
def fieldAt (name : String) (x : α) : Value :=
  (record x).at (pathKeys name)

/-- The comparison of records by a field, turned round for a descending order. -/
def byField (name : String) (descending : Bool) (x y : α) : Except Value.Unordered Bool :=
  if descending then (fieldAt record name y).precedes (fieldAt record name x)
  else (fieldAt record name x).precedes (fieldAt record name y)

/-- One record stands in front of another by several fields: the first one that tells them apart decides, and if
    none does, they stand as they did. -/
def InOrder (R : α → α → Prop) : List (String × Bool) → α → α → Prop
  | [] => R
  | (name, descending) :: keys => InFront (byField record name descending) (InOrder R keys)

variable {record} {name : String} {xs : List α} {R : α → α → Prop}

theorem comesBefore_eq_ok {a b : Value} {answer : Bool} :
    comesBefore a b = .ok answer ↔ a.precedes b = .ok answer := by
  rw [comesBefore]
  cases a.precedes b <;> simp [Except.mapError]

/-- Records are ordered by a field whose values are compared by something of a linear order that all of them have. -/
theorem orders_of_key {β : Type} [LinearOrder β] {key : Value → Option β}
    (hkey : ∀ {a b : Value} {m n : β}, key a = some m → key b = some n → a.precedes b = .ok (decide (m < n)))
    (h : ∀ x ∈ xs, (key (fieldAt record name x)).isSome) : Orders (byField record name false) xs := by
  cases xs with
  | nil => exact ⟨by simp, by simp, by simp⟩
  | cons x xs =>
    obtain ⟨least, -⟩ := Option.isSome_iff_exists.mp (h x (by simp))
    refine .of_key (fun x => (key (fieldAt record name x)).getD least) fun x hx y hy => ?_
    obtain ⟨m, hm⟩ := Option.isSome_iff_exists.mp (h x hx)
    obtain ⟨n, hn⟩ := Option.isSome_iff_exists.mp (h y hy)
    simp [byField, hkey hm hn, hm, hn]

/-- Records are compared with their fields beside them as they are by the field. -/
theorem orders_keyed (h : Orders (byField record name false) xs) :
    Orders (fun a b : Value × α => comesBefore a.1 b.1) (xs.map fun x => (fieldAt record name x, x)) := by
  have hne {x y : α} (h : (fieldAt record name x, x) ≠ (fieldAt record name y, y)) : x ≠ y := by
    rintro rfl
    exact h rfl
  refine ⟨?_, ?_, ?_⟩ <;> simp only [List.forall_mem_map, comesBefore_eq_ok]
  · intro x hx y hy hxy
    exact h.answers x hx y hy (hne hxy)
  · intro x hx y hy hxy
    exact h.asymm x hx y hy (hne hxy)
  · intro x hx y hy z hz hxy hyz hxz
    exact h.trans x hx y hy z hz (hne hxy) (hne hyz) (hne hxz)

theorem keyed_eq (record : α → Value) (name : String) (xs : List α) :
    (xs.mapM fun x => do Except.ok (← Filter.fieldOf (record x) (.text name), x)) =
      .ok (xs.map fun x => (fieldAt record name x, x)) :=
  mapM_eq_ok.mpr (List.forall₂_map_right_iff.mpr (List.forall₂_same.mpr fun _ _ => rfl))

/-- Sorting by a field sorts the records with their fields beside them. -/
theorem sortByKey_eq (record : α → Value) (name : String) (direction : Int) (xs : List α) :
    let keyed := xs.map fun x => (fieldAt record name x, x)
    let before (a b : Value × α) := comesBefore a.1 b.1
    sortByKey record (.text name) direction xs =
      if direction < 0 then (sortWith before keyed.reverse).map fun zs => zs.reverse.map (·.2)
      else (sortWith before keyed).map fun zs => zs.map (·.2) := by
  intro keyed before
  rw [sortByKey, keyed_eq]
  split
  · show (sortWith before keyed.reverse >>= fun zs => Except.ok (zs.reverse.map (·.2))) = _
    cases sortWith before keyed.reverse <;> rfl
  · show (sortWith before keyed >>= fun zs => Except.ok (zs.map (·.2))) = _
    cases sortWith before keyed <;> rfl

/-- **Records sorted by a field stand in order.** -/
theorem sortByKey_inFront (h : Orders (byField record name false) xs) (hnodup : xs.Nodup) (hxs : xs.Pairwise R)
    (direction : Int) :
    ∃ zs, sortByKey record (.text name) direction xs = .ok zs ∧
      zs.Pairwise (InFront (byField record name (decide (direction < 0))) R) := by
  let keyed := xs.map fun x => (fieldAt record name x, x)
  have hkeyed : Orders (fun a b : Value × α => comesBefore a.1 b.1) keyed := orders_keyed h
  have hdistinct : keyed.Nodup := hnodup.map fun x y hxy => (Prod.mk.inj hxy).2
  have hpairs : keyed.Pairwise fun a b => R a.2 b.2 := List.pairwise_map.mpr hxs
  have hfield : ∀ a ∈ keyed, a.1 = fieldAt record name a.2 := by simp [keyed]
  rw [sortByKey_eq]
  by_cases hdirection : direction < 0
  · obtain ⟨zs, hzs, hordered⟩ := sortWith_inFront (hkeyed.mono (List.reverse_subset.mpr (List.Subset.refl keyed)))
      (List.nodup_reverse.mpr hdistinct) (R := fun a b => R b.2 a.2) (List.pairwise_reverse.mpr hpairs)
    have hmem {a : Value × α} (ha : a ∈ zs) : a.1 = fieldAt record name a.2 :=
      hfield a (List.mem_reverse.mp ((sortWith_perm hzs).subset ha))
    refine ⟨_, by rw [if_pos hdirection, hzs]; rfl, ?_⟩
    rw [List.pairwise_map, List.pairwise_reverse]
    refine hordered.imp_of_mem fun ha hb hab => ?_
    simpa only [InFront, byField, hdirection, decide_true, if_true, comesBefore_eq_ok, hmem ha, hmem hb] using hab
  · obtain ⟨zs, hzs, hordered⟩ := sortWith_inFront hkeyed hdistinct hpairs
    have hmem {a : Value × α} (ha : a ∈ zs) : a.1 = fieldAt record name a.2 :=
      hfield a ((sortWith_perm hzs).subset ha)
    refine ⟨_, by rw [if_neg hdirection, hzs]; rfl, ?_⟩
    rw [List.pairwise_map]
    refine hordered.imp_of_mem fun ha hb hab => ?_
    simpa only [InFront, byField, hdirection, decide_false, Bool.false_eq_true, if_false, comesBefore_eq_ok, hmem ha,
      hmem hb] using hab

/-- **Records sorted by several fields stand in order.** -/
theorem sortRecords_inOrder {keys : List (String × Int)}
    (h : ∀ k ∈ keys, Orders (byField record k.1 false) xs) (hnodup : xs.Nodup) (hxs : xs.Pairwise R) :
    ∃ zs, sortRecords record (keys.map fun k => (.text k.1, k.2)) xs = .ok zs ∧
      zs.Pairwise (InOrder record R (keys.map fun k => (k.1, decide (k.2 < 0)))) := by
  induction keys with
  | nil => exact ⟨xs, rfl, hxs⟩
  | cons k keys ih =>
    obtain ⟨hk, hkeys⟩ := List.forall_mem_cons.mp h
    obtain ⟨ys, hys, hordered⟩ := ih hkeys
    have hperm := sortRecords_perm hys
    obtain ⟨zs, hzs, hsorted⟩ :=
      sortByKey_inFront (hk.mono hperm.subset) (hperm.nodup_iff.mpr hnodup) hordered k.2
    refine ⟨zs, ?_, hsorted⟩
    rw [List.map_cons, sortRecords, hys]
    exact hzs

end

/-! ## Pages -/

section

variable {α : Type} (xs : List α)

theorem skipRecords_int (n : Nat) : skipRecords (.int n) xs = .ok (xs.drop n) := by
  rw [skipRecords]
  cases n with
  | zero => rfl
  | succ n => rfl

theorem limitRecords_int {n : Nat} (h : 1 ≤ n) : limitRecords (.int n) xs = .ok (xs.take n) := by
  rw [limitRecords]
  cases n with
  | zero => omega
  | succ n => rfl

/-- Pages one after another are the items in front. -/
theorem flatMap_pages (n m : Nat) :
    ((List.range m).flatMap fun i => (xs.drop (i * n)).take n) = xs.take (m * n) := by
  induction m with
  | zero => simp
  | succ m ih =>
    rw [List.range_succ, List.flatMap_append, ih, Nat.succ_mul, List.take_add]
    simp

end

end Sorting

/-! ## Pages of a query -/

namespace Query

/-- A page of a query: so many files behind as many pages of that size. -/
def page (q : Query) (size index : Nat) : Except Failure Query := do
  let q ← q.withSkip (.int (index * size : Nat))
  q.withLimit (.int size)

theorem isNegative_int (n : Nat) : (Value.int n).isNegative = .ok false := by
  have hwhole : (Value.int n).isNegative = .ok (decide ((n : Int) < 0)) := Value.isNegative_of_whole rfl
  rw [hwhole, decide_eq_false (Int.not_lt.mpr (Int.natCast_nonneg n))]

theorem page_eq (q : Query) (size index : Nat) :
    q.page size index = .ok { q with skip := .int (index * size : Nat), limit := .int size } := by
  rw [page, withSkip, isNegative_int]
  show withLimit { q with skip := .int (index * size : Nat) } (.int size) = _
  rw [withLimit, isNegative_int]
  rfl

end Query

/-! ## Lookups in order -/

/-- One file came before another, as identifiers count the uploads. -/
def StoredFile.UploadedBefore (f g : StoredFile) : Prop :=
  f.id.value < g.id.value

namespace Bucket

open Sorting (Orders byField InOrder skipRecords limitRecords)

/-- A lookup with sort keys puts the files that its filter accepts in order and cuts its page out of them. -/
theorem lookup_inOrder {engine : Engine} {uploads : Nat} {b : Bucket} (hb : b.Sound uploads) {filter : Entries}
    {p : StoredFile → Bool}
    (haccepts : ∀ f ∈ b.files, Filter.accepts engine f.document filter = .ok (p f)) (keys : List (String × Int))
    (hcompares : ∀ k ∈ keys, Orders (byField StoredFile.document k.1 false) (b.files.filter p)) :
    ∃ listed, listed.Perm (b.files.filter p) ∧
      listed.Pairwise
        (InOrder StoredFile.document StoredFile.UploadedBefore (keys.map fun k => (k.1, decide (k.2 < 0)))) ∧
      ∀ skip limit,
        b.lookup engine
            { filter := filter, sort := keys.map fun k => (.text k.1, k.2), skip := skip, limit := limit } =
          (skipRecords skip listed).bind (limitRecords limit) := by
  have hfiles : b.files.Pairwise StoredFile.UploadedBefore := by
    have hascending := hb.ascending
    rwa [List.pairwise_map] at hascending
  have hnodup : b.files.Nodup := .of_map _ hb.distinct
  obtain ⟨listed, hlisted, hordered⟩ :=
    Sorting.sortRecords_inOrder hcompares (hnodup.filter p) (hfiles.filter p)
  refine ⟨listed, Sorting.sortRecords_perm hlisted, hordered, fun skip limit => ?_⟩
  rw [lookup, Filter.select_of_accepts haccepts]
  show (Sorting.sortRecords _ _ _ >>= fun sorted => skipRecords skip sorted >>= limitRecords limit) = _
  rw [hlisted]
  rfl

end Bucket

namespace Template

/-- The query gives these files. -/
def Gives (t : Template) (s : Store) (q : Query) (listed : List StoredFile) : Prop :=
  ((t.find (some q)).run s).1.map Cursor.files = .ok listed

/-- What the cursor of a query tells about its files. -/
theorem Gives.map {t : Template} {s : Store} {q : Query} {listed : List StoredFile} (h : t.Gives s q listed)
    {β : Type} (g : List StoredFile → β) :
    ((t.find (some q)).run s).1.map (fun cursor => g cursor.files) = .ok (g listed) := by
  obtain ⟨cursor, hcursor, rfl⟩ := map_eq_ok.mp h
  rw [hcursor]
  rfl

theorem gives_of_lookup {t : Template} {s : Store} {q : Query} {l : Lookup} {listed : List StoredFile}
    (hl : lookupFor (some q) = .ok l) (hfiles : (s.bucket t.bucketName).lookup s.engine l = .ok listed) :
    t.Gives s q listed := by
  rw [Gives, find_run, hl]
  simp only [hfiles]
  rfl

/-- Sort keys that are texts can be told. -/
theorem writable_sort (calls : List (String × Value)) :
    Value.writableItems ((calls.map fun c =>
      (Value.text (Query.sortField c.1), if Query.descends c.2 then (-1 : Int) else 1)).map
        fun (key, direction) => .tuple [key, .int direction]) = true := by
  induction calls with
  | nil => rfl
  | cons c calls ih =>
    rw [List.map_cons, List.map_cons, Value.writableItems, ih, Bool.and_true]
    cases Query.descends c.2 <;> rfl

/-- What is sent to a bucket for a query with sort keys, whatever page of it is asked for. -/
theorem lookupFor_calls {es filter : Entries} {calls : List (String × Value)} {q : Query}
    (hfilter : Native.filter (.document es) = .ok filter) (hwritable : (Value.document filter).writable = true)
    (hnames : (calls.map (·.1)).Nodup) (hq : ({ criteria := es } : Query).sortCalls calls = .ok q)
    (skip limit : Value) :
    lookupFor (some { q with skip := skip, limit := limit }) = .ok
      { filter := filter
        sort := calls.map fun c => (.text (Query.sortField c.1), if Query.descends c.2 then -1 else 1)
        skip := skip
        limit := limit } := by
  obtain ⟨object, hobject, hsort⟩ := Query.sort_of_calls hnames hq
  have hcriteria : q.criteria = es := by rw [(Query.sortCalls_eq_ok hq).1]
  show ((do
    let filter ← Native.filter (.document q.criteria)
    let sort ← Native.sort (.document (← q.sortObject))
    Except.ok ({ filter := filter, sort := sort, skip := skip, limit := limit } : Lookup)).bind told) = _
  rw [hcriteria, hfilter, hobject]
  show ((Native.sort (.document object)).map
    (fun sort => ({ filter := filter, sort := sort, skip := skip, limit := limit } : Lookup))).bind told = _
  rw [hsort]
  exact told_of_writable hwritable (writable_sort calls)

/-- **A query lists what it matches in order, at once or by pages.** Each file that the filter accepts is listed once.
    The first sort key decides, each in its direction, and files that no key tells apart stand in the order of their
    uploads. The pages of any size, asked for one after another, give the same files in the same order. -/
theorem find_orders_and_pages {s : Store} (hs : s.Reachable) (t : Template) {es filter : Entries}
    {p : StoredFile → Bool} {calls : List (String × Value)} {q : Query}
    (hfilter : Native.filter (.document es) = .ok filter) (hwritable : (Value.document filter).writable = true)
    (haccepts : ∀ f ∈ (s.bucket t.bucketName).files, Filter.accepts s.engine f.document filter = .ok (p f))
    (hnames : (calls.map (·.1)).Nodup) (hq : ({ criteria := es } : Query).sortCalls calls = .ok q)
    (hcompares : ∀ c ∈ calls, Sorting.Orders (Sorting.byField StoredFile.document (Query.sortField c.1) false)
      ((s.bucket t.bucketName).files.filter p)) :
    ∃ listed, t.Gives s q listed ∧ listed.Perm ((s.bucket t.bucketName).files.filter p) ∧ listed.Nodup ∧
      listed.Pairwise (Sorting.InOrder StoredFile.document StoredFile.UploadedBefore (Query.sortKeys calls)) ∧
      ∀ size, 1 ≤ size → ∃ page : Nat → List StoredFile,
        (∀ i, ∃ q', q.page size i = .ok q' ∧ ∀ s', s.SameFiles s' → t.Gives s' q' (page i)) ∧
        (∀ m, (List.range m).flatMap page = listed.take (m * size)) ∧
        ∀ m, listed.length ≤ m * size → (List.range m).flatMap page = listed := by
  let keys := calls.map fun c => (Query.sortField c.1, if Query.descends c.2 then (-1 : Int) else 1)
  have hsound := hs.sound t.bucketName
  have hnodup : (s.bucket t.bucketName).files.Nodup := .of_map _ hsound.distinct
  obtain ⟨listed, hperm, hordered, hlookup⟩ := Bucket.lookup_inOrder hsound haccepts keys
    (List.forall_mem_map.mpr hcompares)
  have hkeys : (keys.map fun k => (k.1, decide (k.2 < 0))) = Query.sortKeys calls := by
    rw [Query.sortKeys, List.map_map]
    refine List.map_congr_left fun c _ => ?_
    cases hdescends : Query.descends c.2 <;> simp [hdescends]
  rw [hkeys] at hordered
  have hsent (skip limit : Value) := lookupFor_calls hfilter hwritable hnames hq skip limit
  have hsort : (calls.map fun c => (Value.text (Query.sortField c.1), if Query.descends c.2 then (-1 : Int) else 1)) =
      keys.map fun k => (.text k.1, k.2) := by
    simp [keys]
  rw [hsort] at hsent
  refine ⟨listed, ?_, hperm, hperm.nodup_iff.mpr (hnodup.filter p), hordered, fun size hsize => ?_⟩
  · have hwhole : q = { q with skip := .int 0, limit := .int 0 } := by
      rw [(Query.sortCalls_eq_ok hq).1]
    rw [hwhole]
    exact gives_of_lookup (hsent _ _) (hlookup _ _)
  · have hpages := Sorting.flatMap_pages listed size
    refine ⟨fun i => (listed.drop (i * size)).take size, fun i => ?_, hpages, fun m hm => ?_⟩
    · refine ⟨_, q.page_eq size i, fun s' hs' => gives_of_lookup (hsent _ _) ?_⟩
      rw [hs'.buckets, hs'.engine, hlookup, Sorting.skipRecords_int]
      exact Sorting.limitRecords_int _ hsize
    · rw [hpages, List.take_of_length_le hm]

/-- A store can evaluate criteria with a mapping one of whose keys is a number, and with a number of more digits than
are written. Neither gets there: the first one cannot be mapped, the second one not be told of. -/
theorem find_fails_before_lookup :
    let inner := Value.document [(.text "x", .int 1), (.int 5, .int 2)]
    let s := [Store.Action.upload "fs" (.text "a") [1] none (.document [(.text "x", inner)])].foldl Store.Action.after {}
    let t : Template := {}
    let keyed : Entries := [(.text "metadata.x", inner)]
    let long : Entries := [(.text "length", .int (Value.firstBeyond Text.digitLimit))]
    s.Reachable ∧
      (∀ f ∈ (s.bucket "fs").files, Filter.accepts s.engine f.document keyed = .ok true) ∧
      ((t.find (some { criteria := keyed })).run s).1 = .error .lacksOperation ∧
      (∀ f ∈ (s.bucket "fs").files, Filter.accepts s.engine f.document long = .ok false) ∧
      ((t.find (some { criteria := long })).run s).1 = .error Value.longNumber := by
  intro inner s t keyed long
  have hmapped : Native.filter (.document long) = .ok long := rfl
  have hwritable : (Value.document long).writable = false := by decide +kernel
  exact ⟨Store.Reachable.empty.run _, by decide +kernel, rfl, by decide +kernel,
    find_of_not_writable t s hmapped hwritable⟩

/-- Four files of five, by a number downwards and then by name: two that neither tells apart stand as they were
    uploaded, and pages of three break off behind them. -/
theorem find_orders_and_pages_ties :
    let upload (name : String) (n : Int) : Store.Action :=
      .upload "fs" (.text name) [] none (.document [(.text "n", .int n)])
    let s := [upload "b" 1, upload "a" 2, upload "a" 1, upload "a" 2, upload "c" 2].foldl Store.Action.after {}
    let t : Template := {}
    let es : Entries := [(.text "filename", .document [(.text "$ne", .text "c")])]
    let calls : List (String × Value) := [("metadata.n", .int (-1)), ("filename", .int 1)]
    ∃ q listed, ({ criteria := es } : Query).sortCalls calls = .ok q ∧ t.Gives s q listed ∧
      listed.map (·.id.value) = [2, 4, 3, 1] ∧
      ∃ first second, q.page 3 0 = .ok first ∧ q.page 3 1 = .ok second ∧
        t.Gives s first (listed.take 3) ∧ t.Gives s second (listed.drop 3) := by
  intro upload s t es calls
  have hs : s.Reachable := Store.Reachable.empty.run _
  have haccepts : ∀ f ∈ (s.bucket "fs").files,
      Filter.accepts s.engine f.document es = .ok (f.filename != "c") := by
    intro f _
    rw [Filter.accepts_field _ _ _ (by decide) (by decide), f.document_filename,
      Filter.conditionAccepts_operator _ _ _ (by decide) (by decide)]
    show Except.ok (!(some "c" == some f.filename)) = _
    rw [Bool.beq_comm]
    rfl
  have hcompares : ∀ c ∈ calls, Sorting.Orders (Sorting.byField StoredFile.document (Query.sortField c.1) false)
      ((s.bucket "fs").files.filter fun f => f.filename != "c") := by
    refine List.forall_mem_cons.mpr ⟨?_, List.forall_mem_singleton.mpr ?_⟩
    · exact Sorting.orders_of_key Value.precedes_of_whole (by decide +kernel)
    · exact Sorting.orders_of_key Value.precedes_of_text (by decide +kernel)
  let q : Query := { criteria := es, sort := calls.map fun c => (.text c.1, c.2) }
  have hq : ({ criteria := es } : Query).sortCalls calls = .ok q := rfl
  have hfilter : Native.filter (.document es) = .ok es := rfl
  obtain ⟨listed, hgives, -, -, -, hpages⟩ :=
    find_orders_and_pages hs t hfilter rfl haccepts (by decide) hq hcompares
  obtain ⟨page, hpage, hprefix, -⟩ := hpages 3 (by decide)
  have hlisted : listed.map (·.id.value) = [2, 4, 3, 1] := by
    have hids : ((t.find (some q)).run s).1.map (fun cursor => cursor.files.map (·.id.value)) = .ok [2, 4, 3, 1] := by
      decide +kernel
    exact Except.ok.inj ((hgives.map (List.map (·.id.value))).symm.trans hids)
  obtain ⟨first, hfirst, hgivesFirst⟩ := hpage 0
  obtain ⟨second, hsecond, hgivesSecond⟩ := hpage 1
  have hpageFirst : page 0 = listed.take 3 := by simpa using hprefix 1
  have hpageSecond : page 1 = listed.drop 3 := by
    have hall : page 0 ++ page 1 = listed.take 6 := by simpa [List.range_succ] using hprefix 2
    have hlength : listed.length = 4 := by simpa using congrArg List.length hlisted
    have hwhole : listed.take 6 = listed := List.take_of_length_le (by omega)
    rw [hpageFirst, hwhole] at hall
    exact List.append_cancel_left (hall.trans (List.take_append_drop 3 listed).symm)
  rw [hpageFirst] at hgivesFirst
  rw [hpageSecond] at hgivesSecond
  have hsame : s.SameFiles s := ⟨fun _ => rfl, rfl, rfl⟩
  exact ⟨q, listed, hq, hgives, hlisted, first, second, hfirst, hsecond, hgivesFirst s hsame, hgivesSecond s hsame⟩

end Template

end FileDepot
