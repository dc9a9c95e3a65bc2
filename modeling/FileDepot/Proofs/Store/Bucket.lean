import FileDepot.Proofs.Value.Sorting
import FileDepot.Store.Bucket
import Mathlib.Data.List.Nodup
import Mathlib.Data.List.Perm.Subperm

/-!
# Lookups and deletions in a bucket

What a lookup lists are files of the bucket, each once, and what is deleted one by one is gone afterwards.

Contents:

* `select_eq_ok` — a filter keeps the files that it accepts, and has to be able to test them all;
* `Bucket.lookup_subperm`, `Bucket.lookup_without` — the files that a lookup lists, and that it lists none
  when they are gone;
* `Bucket.without`, `Bucket.deleteAll_eq` — files deleted one by one, up to the first refusal.
-/

namespace FileDepot

/-! ## Filters -/

namespace Filter

variable {α : Type} {engine : Engine} {record : α → Value} {filter : Entries}

/-- A filter keeps what it accepts, if it can test everything. -/
theorem select_of_accepts {p : α → Bool} {xs : List α}
    (h : ∀ x ∈ xs, accepts engine (record x) filter = .ok (p x)) :
    select engine record filter xs = .ok (xs.filter p) := by
  induction xs with
  | nil => rfl
  | cons x xs ih =>
    obtain ⟨hx, hxs⟩ := List.forall_mem_cons.mp h
    rw [select, hx, ih hxs, List.filter_cons]
    rfl

/-- **What a filter keeps.** It has tested everything, and keeps what it accepts. -/
theorem select_eq_ok {xs ys : List α} :
    select engine record filter xs = .ok ys ↔
      ∃ p : α → Bool, (∀ x ∈ xs, accepts engine (record x) filter = .ok (p x)) ∧ ys = xs.filter p := by
  constructor
  · intro h
    have hp : ∀ x ∈ xs, accepts engine (record x) filter =
        .ok ((accepts engine (record x) filter).toOption.getD false) := by
      induction xs generalizing ys with
      | nil => simp
      | cons x xs ih =>
        rw [select] at h
        obtain ⟨answer, hx, h⟩ := bind_eq_ok.mp h
        obtain ⟨rest, hrest, -⟩ := bind_eq_ok.mp h
        exact List.forall_mem_cons.mpr ⟨by rw [hx]; rfl, ih hrest⟩
    rw [select_of_accepts hp] at h
    exact ⟨_, hp, (Except.ok.inj h).symm⟩
  · rintro ⟨p, hp, rfl⟩
    exact select_of_accepts hp

end Filter

/-! ## Order and paging -/

namespace Sorting

variable {α : Type} {record : α → Value}

theorem map_snd_of_mapM_keyed {key : Value} {xs : List α} {keyed : List (Value × α)}
    (h : (xs.mapM fun x => do Except.ok (← Filter.fieldOf (record x) key, x)) = .ok keyed) :
    keyed.map (·.2) = xs := by
  induction xs generalizing keyed with
  | nil =>
    obtain rfl := Except.ok.inj h
    rfl
  | cons x xs ih =>
    rw [List.mapM_cons] at h
    obtain ⟨first, hfirst, h⟩ := bind_eq_ok.mp h
    obtain ⟨rest, hrest, h⟩ := bind_eq_ok.mp h
    obtain ⟨field, -, hfield⟩ := bind_eq_ok.mp hfirst
    obtain rfl := Except.ok.inj hfield
    obtain rfl := Except.ok.inj h
    rw [List.map_cons, ih hrest]

theorem sortByKey_perm {key : Value} {direction : Int} {xs zs : List α}
    (h : sortByKey record key direction xs = .ok zs) : zs.Perm xs := by
  rw [sortByKey] at h
  obtain ⟨keyed, hkeyed, h⟩ := bind_eq_ok.mp h
  rw [← map_snd_of_mapM_keyed hkeyed]
  simp only at h
  split at h
  · obtain ⟨sorted, hsorted, h⟩ := bind_eq_ok.mp h
    obtain rfl := Except.ok.inj h
    exact ((List.reverse_perm sorted).trans
      ((sortWith_perm hsorted).trans (List.reverse_perm keyed))).map _
  · obtain ⟨sorted, hsorted, h⟩ := bind_eq_ok.mp h
    obtain rfl := Except.ok.inj h
    exact (sortWith_perm hsorted).map _

theorem sortRecords_perm {keys : List (Value × Int)} {xs zs : List α}
    (h : sortRecords record keys xs = .ok zs) : zs.Perm xs := by
  induction keys generalizing zs with
  | nil =>
    obtain rfl := Except.ok.inj h
    exact .refl _
  | cons key keys ih =>
    obtain ⟨key, direction⟩ := key
    rw [sortRecords] at h
    obtain ⟨ys, hys, h⟩ := bind_eq_ok.mp h
    exact (sortByKey_perm h).trans (ih hys)

theorem sortRecords_nil (keys : List (Value × Int)) : sortRecords record keys [] = .ok [] := by
  induction keys with
  | nil => rfl
  | cons key keys ih =>
    obtain ⟨key, direction⟩ := key
    rw [sortRecords, ih]
    show sortByKey record key direction [] = .ok []
    rw [sortByKey]
    simp only [List.mapM_nil]
    show (if direction < 0 then _ else _) = _
    split <;> rfl

theorem skipRecords_sublist {n : Value} {xs ys : List α} (h : skipRecords n xs = .ok ys) :
    ys.Sublist xs := by
  rw [skipRecords] at h
  split at h
  · obtain ⟨count, -, h⟩ := bind_eq_ok.mp h
    obtain rfl := Except.ok.inj h
    exact List.drop_sublist count xs
  · obtain rfl := Except.ok.inj h
    exact .refl _

theorem limitRecords_sublist {n : Value} {xs ys : List α} (h : limitRecords n xs = .ok ys) :
    ys.Sublist xs := by
  rw [limitRecords] at h
  split at h
  · obtain ⟨count, -, h⟩ := bind_eq_ok.mp h
    obtain rfl := Except.ok.inj h
    exact List.take_sublist count xs
  · obtain rfl := Except.ok.inj h
    exact .refl _

theorem skipRecords_of_not_truthy {n : Value} (h : n.truthy = false) (xs : List α) :
    skipRecords n xs = .ok xs := by
  simp [skipRecords, h]

theorem limitRecords_of_not_truthy {n : Value} (h : n.truthy = false) (xs : List α) :
    limitRecords n xs = .ok xs := by
  simp [limitRecords, h]

end Sorting

namespace Bucket

/-! ## Lookups -/

variable {engine : Engine}

theorem lookup_eq_ok {b : Bucket} {l : Lookup} {listed : List StoredFile} :
    b.lookup engine l = .ok listed ↔
      ∃ found, Filter.select engine StoredFile.document l.filter b.files = .ok found ∧
        ∃ sorted, Sorting.sortRecords StoredFile.document l.sort found = .ok sorted ∧
          ∃ rest, Sorting.skipRecords l.skip sorted = .ok rest ∧
            Sorting.limitRecords l.limit rest = .ok listed := by
  simp only [lookup, bind_eq_ok]

/-- **A lookup lists files of the bucket**, each of them at most once. -/
theorem lookup_subperm {b : Bucket} {l : Lookup} {listed : List StoredFile}
    (h : b.lookup engine l = .ok listed) : listed.Subperm b.files := by
  obtain ⟨found, hfound, sorted, hsorted, rest, hrest, hlisted⟩ := lookup_eq_ok.mp h
  obtain ⟨p, -, rfl⟩ := Filter.select_eq_ok.mp hfound
  have hpaged : listed.Sublist sorted :=
    (Sorting.limitRecords_sublist hlisted).trans (Sorting.skipRecords_sublist hrest)
  exact hpaged.subperm.trans
    ((Sorting.sortRecords_perm hsorted).subperm.trans List.filter_sublist.subperm)

/-- No two files of the bucket have one identifier. -/
def Distinct (b : Bucket) : Prop :=
  (b.files.map StoredFile.id).Nodup

/-- Files of the bucket, each at most once, have identifiers of their own. -/
theorem Distinct.nodup_ids {b : Bucket} (hb : b.Distinct) {listed : List StoredFile}
    (h : listed.Subperm b.files) : (listed.map StoredFile.id).Nodup := by
  obtain ⟨files, hperm, hsub⟩ := h
  exact ((hperm.map _).nodup_iff).mp (hb.sublist (hsub.map _))

theorem Distinct.eq_of_id_eq {b : Bucket} (hb : b.Distinct) {f g : StoredFile} (hf : f ∈ b.files)
    (hg : g ∈ b.files) (h : f.id = g.id) : f = g :=
  List.inj_on_of_nodup_map hb hf hg h

/-- As identifiers are distinct, a file has the identifier of a listed one only if it is listed itself. -/
theorem Distinct.mem_ids_iff {b : Bucket} (hb : b.Distinct) {listed : List StoredFile}
    (h : listed ⊆ b.files) {f : StoredFile} (hf : f ∈ b.files) :
    f.id ∈ listed.map StoredFile.id ↔ f ∈ listed := by
  rw [List.mem_map]
  constructor
  · rintro ⟨g, hg, hid⟩
    rwa [← hb.eq_of_id_eq (h hg) hf hid]
  · intro hf
    exact ⟨f, hf, rfl⟩

/-! ## Deletions -/

/-- The bucket without the files of some identifiers, which have been deleted in this order. -/
def without (b : Bucket) (ids : List ObjectId) : Bucket :=
  { b with
    files := b.files.filter fun f => !ids.contains f.id
    deleted := b.deleted ++ ids }

@[simp] theorem without_nil (b : Bucket) : b.without [] = b := by
  simp [without]

theorem without_without (b : Bucket) (ids ids' : List ObjectId) :
    (b.without ids).without ids' = b.without (ids ++ ids') := by
  simp only [without, List.filter_filter, List.append_assoc]
  congr 1
  refine List.filter_congr fun f _ => ?_
  rw [List.contains_append, Bool.not_or, Bool.and_comm]

/-- Without the files that a test accepts the bucket has those that it does not accept. -/
theorem Distinct.files_without_filter {b : Bucket} (hb : b.Distinct) (p : StoredFile → Bool) :
    (b.without ((b.files.filter p).map StoredFile.id)).files = b.files.filter fun f => !p f := by
  refine List.filter_congr fun f hf => ?_
  have hmem : ((b.files.filter p).map StoredFile.id).contains f.id = p f := by
    rw [Bool.eq_iff_iff, List.contains_iff_mem, hb.mem_ids_iff List.filter_sublist.subset hf, List.mem_filter]
    exact and_iff_right hf
  rw [hmem]

theorem Distinct.without {b : Bucket} (hb : b.Distinct) (ids : List ObjectId) :
    (b.without ids).Distinct :=
  hb.sublist (List.filter_sublist.map _)

/-- Deleting an identifier from files with identifiers of their own takes out all files that have it. -/
theorem eraseP_id_eq_filter {files : List StoredFile} (h : (files.map StoredFile.id).Nodup)
    (i : ObjectId) :
    files.eraseP (fun f => f.id == i) = files.filter fun f => !([i].contains f.id) := by
  induction files with
  | nil => rfl
  | cons f files ih =>
    obtain ⟨hf, hfiles⟩ := List.nodup_cons.mp h
    by_cases hi : f.id = i
    · -- no later file has the identifier, so the filter takes no further one out
      have hrest : files.filter (fun g => !([i].contains g.id)) = files := by
        refine List.filter_eq_self.mpr fun g hg => ?_
        have hne : g.id ≠ i := fun hgi => hf (hi ▸ hgi ▸ List.mem_map_of_mem hg)
        simp [hne]
      rw [List.eraseP_cons_of_pos (by simp [hi]), List.filter_cons_of_neg (by simp [hi]), hrest]
    · rw [List.eraseP_cons_of_neg (by simp [hi]), List.filter_cons_of_pos (by simp [hi]), ih hfiles]

/-- A bucket that does not refuse deletes a file that it has. -/
theorem delete_eq {b : Bucket} (hb : b.Distinct) {i : ObjectId} (hi : i ∈ b.files.map StoredFile.id)
    (hroom : ∀ n ∈ b.deleteLimit, b.deleted.length < n) : b.delete i = (b.without [i], .ok ()) := by
  have hlimit : (b.deleteLimit.any fun n => n ≤ b.deleted.length) = false := by
    cases hn : b.deleteLimit with
    | none => rfl
    | some n => simpa using hroom n (by simp [hn])
  have hany : (b.files.any fun f => f.id == i) = true := by
    obtain ⟨f, hf, hfi⟩ := List.mem_map.mp hi
    exact List.any_eq_true.mpr ⟨f, hf, by simp [hfi]⟩
  rw [delete, hlimit, if_neg (by simp), if_pos hany, eraseP_id_eq_filter hb, without]

/-- **Files deleted one by one are gone**, if the bucket refuses none of them. -/
theorem deleteAll_eq {b : Bucket} (hb : b.Distinct) {ids : List ObjectId} (hids : ids.Nodup)
    (hmem : ∀ i ∈ ids, i ∈ b.files.map StoredFile.id)
    (hroom : ∀ n ∈ b.deleteLimit, b.deleted.length + ids.length ≤ n) :
    b.deleteAll ids = (b.without ids, .ok ()) := by
  induction ids generalizing b with
  | nil => simp [deleteAll]
  | cons i ids ih =>
    obtain ⟨hi, hids⟩ := List.nodup_cons.mp hids
    obtain ⟨himem, hmem⟩ := List.forall_mem_cons.mp hmem
    have hdelete : b.delete i = (b.without [i], .ok ()) := by
      refine delete_eq hb himem fun n hn => ?_
      have := hroom n hn
      simp only [List.length_cons] at this
      omega
    have hrest : (b.without [i]).deleteAll ids = ((b.without [i]).without ids, .ok ()) := by
      refine ih (hb.without [i]) hids (fun j hj => ?_) fun n hn => ?_
      · obtain ⟨f, hf, rfl⟩ := List.mem_map.mp (hmem j hj)
        refine List.mem_map_of_mem (List.mem_filter.mpr ⟨hf, ?_⟩)
        have hne : f.id ≠ i := fun h => hi (h ▸ hj)
        simp [hne]
      · have := hroom n hn
        simp only [List.length_cons] at this
        simp only [without, List.length_append, List.length_singleton]
        omega
    rw [deleteAll, hdelete]
    simp only
    rw [hrest, without_without, List.singleton_append]

theorem deleteAll_append (b : Bucket) (front behind : List ObjectId) :
    b.deleteAll (front ++ behind) =
      match b.deleteAll front with
      | (b, .ok ()) => b.deleteAll behind
      | (b, .error e) => (b, .error e) := by
  induction front generalizing b with
  | nil => rfl
  | cons i front ih =>
    rw [List.cons_append, deleteAll, deleteAll]
    match b.delete i with
    | (b, .ok ()) => exact ih b
    | (b, .error e) => rfl

/-- **Where a bucket refuses a deletion, the files in front of it are gone and no others.** -/
theorem deleteAll_refused {b : Bucket} (hb : b.Distinct) {front behind : List ObjectId} {i : ObjectId}
    (hids : front.Nodup) (hmem : ∀ i ∈ front, i ∈ b.files.map StoredFile.id)
    (hlimit : b.deleteLimit = some (b.deleted.length + front.length)) :
    b.deleteAll (front ++ i :: behind) =
      (b.without front, .error (.noFile s!"simulated failure deleting {i.render}")) := by
  have hfront : b.deleteAll front = (b.without front, .ok ()) := by
    refine deleteAll_eq hb hids hmem fun n hn => ?_
    rw [hlimit] at hn
    exact Nat.le_of_eq (Option.some.inj hn)
  have hfull : ((b.without front).deleteLimit.any fun n => n ≤ (b.without front).deleted.length) =
      true := by
    simp [without, hlimit]
  rw [deleteAll_append, hfront]
  simp only [deleteAll, delete, hfull, if_true]

/-- A bucket without the files of a lookup that pages nothing has no files for it. -/
theorem lookup_without {b : Bucket} {l : Lookup} {listed : List StoredFile}
    (h : b.lookup engine l = .ok listed) (hskip : l.skip.truthy = false) (hlimit : l.limit.truthy = false) :
    (b.without (listed.map StoredFile.id)).lookup engine l = .ok [] := by
  obtain ⟨found, hfound, sorted, hsorted, rest, hrest, hlisted⟩ := lookup_eq_ok.mp h
  rw [Sorting.skipRecords_of_not_truthy hskip] at hrest
  obtain rfl := Except.ok.inj hrest
  rw [Sorting.limitRecords_of_not_truthy hlimit] at hlisted
  obtain rfl := Except.ok.inj hlisted
  obtain ⟨p, hp, rfl⟩ := Filter.select_eq_ok.mp hfound
  -- what the filter accepts is listed, so no file that it accepts remains
  have hgone : ∀ f ∈ (b.without (sorted.map StoredFile.id)).files,
      Filter.accepts engine f.document l.filter = .ok false := by
    intro f hf
    obtain ⟨hmem, hkept⟩ := List.mem_filter.mp hf
    rw [hp f hmem]
    cases hpf : p f with
    | false => rfl
    | true =>
      have hsort : f ∈ sorted :=
        (Sorting.sortRecords_perm hsorted).mem_iff.mpr (List.mem_filter.mpr ⟨hmem, hpf⟩)
      have hcontains : (sorted.map StoredFile.id).contains f.id = true :=
        List.contains_iff_mem.mpr (List.mem_map_of_mem hsort)
      simp only [hcontains, Bool.not_true, Bool.false_eq_true] at hkept
  refine lookup_eq_ok.mpr ⟨[], ?_, [], Sorting.sortRecords_nil _, [], ?_, ?_⟩
  · rw [Filter.select_of_accepts hgone]
    simp
  · exact Sorting.skipRecords_of_not_truthy hskip []
  · exact Sorting.limitRecords_of_not_truthy hlimit []

end Bucket

end FileDepot
