import FileDepot.Proofs.Store.Reachable

/-!
# Deletions remove what lookups list

A deletion looks files up and deletes them one by one while the bucket changes under it. Since identifiers
are used once, what goes are exactly the files that were listed.

Contents:

* `Store.SameFiles`, `Store.Loses` — what a step leaves alone, and what it takes away;
* `PagesNothing` — a query that lists everything it matches;
* `Store.refuseDeletions` — a store one bucket of which refuses further deletions;
* `Template.delete_run_ok`, `Template.delete_run_error` — a deletion by what its lookup gives;
* `Template.delete_removes_found` — what a deletion removes, and where it stops when the bucket refuses.
-/

namespace FileDepot

namespace Store

/-- No bucket has changed. -/
structure SameFiles (s s' : Store) : Prop where
  buckets : ∀ name, s'.bucket name = s.bucket name
  uploads : s'.uploads = s.uploads
  engine : s'.engine = s.engine

/-- A bucket has lost these files, which it had, and nothing else has changed: the files that remain are
    those of other identifiers, in the order in which they were. -/
structure Loses (s : Store) (name : String) (gone : List StoredFile) (s' : Store) : Prop where
  bucket : s'.bucket name = (s.bucket name).without (gone.map StoredFile.id)
  files : (gone ++ (s'.bucket name).files).Perm (s.bucket name).files
  others : ∀ other, other ≠ name → s'.bucket other = s.bucket other
  uploads : s'.uploads = s.uploads
  engine : s'.engine = s.engine

/-- The store with a bucket that refuses deletions after this many more. -/
def refuseDeletions (s : Store) (name : String) (count : Nat) : Store :=
  s.modifyBucket name fun b => { b with deleteLimit := some (b.deleted.length + count) }

end Store

/-- Files that a bucket has and the files that it has without them are together all its files. -/
theorem Bucket.append_without_perm {b : Bucket} (hb : b.Distinct) {gone : List StoredFile}
    (h : gone.Subperm b.files) :
    (gone ++ (b.without (gone.map StoredFile.id)).files).Perm b.files := by
  have hnodup : b.files.Nodup := .of_map _ hb
  have hgone : gone.Nodup := .of_map _ (hb.nodup_ids h)
  have hmem {f : StoredFile} (hf : f ∈ b.files) :
      (gone.map StoredFile.id).contains f.id = true ↔ f ∈ gone := by
    rw [List.contains_iff_mem, hb.mem_ids_iff h.subset hf]
  have hsplit := List.filter_append_perm (fun f => (gone.map StoredFile.id).contains f.id) b.files
  have hkept : gone.Perm (b.files.filter fun f => (gone.map StoredFile.id).contains f.id) := by
    refine (List.perm_ext_iff_of_nodup hgone (hnodup.filter _)).mpr fun f => ?_
    rw [List.mem_filter]
    constructor
    · intro hf
      exact ⟨h.subset hf, (hmem (h.subset hf)).mpr hf⟩
    · rintro ⟨hf, hid⟩
      exact (hmem hf).mp hid
  exact (hkept.append_right _).trans hsplit

/-- The query lists everything that it matches. -/
def PagesNothing : Option Query → Prop
  | none => True
  | some q => q.skip.truthy = false ∧ q.limit.truthy = false

namespace Template

theorem lookupFor_paging {q : Option Query} {l : Lookup} (hl : lookupFor q = .ok l)
    (hq : PagesNothing q) : l.skip.truthy = false ∧ l.limit.truthy = false := by
  cases q with
  | none =>
    obtain rfl := Except.ok.inj hl
    exact ⟨rfl, rfl⟩
  | some q =>
    obtain ⟨sent, hsent, htold⟩ := bind_eq_ok.mp hl
    obtain ⟨-, -, rfl⟩ := map_eq_ok.mp htold
    obtain ⟨filter, -, hsent⟩ := bind_eq_ok.mp hsent
    obtain ⟨object, -, hsent⟩ := bind_eq_ok.mp hsent
    obtain ⟨sort, -, hsent⟩ := bind_eq_ok.mp hsent
    obtain rfl := Except.ok.inj hsent
    exact hq

/-- The answer of a lookup depends on the files of the bucket, and on what answers for patterns that are not
read. -/
theorem find_answer (t : Template) (q : Option Query) {s s' : Store}
    (h : (s'.bucket t.bucketName).files = (s.bucket t.bucketName).files) (hengine : s'.engine = s.engine) :
    ((t.find q).run s').1 = ((t.find q).run s).1 := by
  rw [find_run, find_run]
  cases lookupFor q with
  | error e => rfl
  | ok l => simp only [Bucket.lookup, h, hengine]

/-- What a lookup has listed is what the bucket gives for the query. -/
theorem find_eq_ok {t : Template} {q : Option Query} {s : Store} {cursor : Cursor}
    (h : ((t.find q).run s).1 = .ok cursor) :
    lookupFor q = .ok cursor.lookup ∧
      (s.bucket t.bucketName).lookup s.engine cursor.lookup = .ok cursor.files := by
  rw [find_run] at h
  cases hl : lookupFor q with
  | error e => simp [hl] at h
  | ok l =>
    rw [hl] at h
    cases hfiles : (s.bucket t.bucketName).lookup s.engine l with
    | error e => simp [hfiles, Except.map] at h
    | ok files =>
      simp only [hfiles, Except.map, Except.ok.injEq] at h
      subst h
      exact ⟨rfl, hfiles⟩

theorem find_store (t : Template) (q : Option Query) (s : Store) :
    s.SameFiles ((t.find q).run s).2 := by
  rw [find_run]
  cases lookupFor q with
  | error e => exact ⟨fun _ => rfl, rfl, rfl⟩
  | ok l => exact ⟨fun _ => rfl, rfl, rfl⟩

/-- A lookup gives the same answer when the bucket has been asked for before. -/
theorem find_asked (t : Template) (q : Option Query) (s : Store) :
    ∃ s', s.SameFiles s' ∧ (t.find q).run (s.asked t.bucketName) = (((t.find q).run s).1, s') := by
  have hasked : ((s.asked t.bucketName).bucket t.bucketName).files = (s.bucket t.bucketName).files := rfl
  have hstore := t.find_store q (s.asked t.bucketName)
  refine ⟨((t.find q).run (s.asked t.bucketName)).2, ⟨hstore.buckets, hstore.uploads, hstore.engine⟩, ?_⟩
  rw [← t.find_answer q hasked rfl]
  rfl

/-- Where the lookup fails, the deletion fails in the same way and deletes nothing. -/
theorem delete_run_error {t : Template} {q : Option Query} {s : Store} {e : Failure}
    (h : ((t.find q).run s).1 = .error e) :
    ((t.delete q).run s).1 = .error e ∧ s.SameFiles ((t.delete q).run s).2 := by
  obtain ⟨s', hsame, hrun⟩ := t.find_asked q s
  rw [delete_run, hrun, h]
  exact ⟨rfl, hsame⟩

/-- Where the lookup lists files, the deletion is that of their identifiers, one by one. -/
theorem delete_run_ok {t : Template} {q : Option Query} {s : Store} {cursor : Cursor}
    (h : ((t.find q).run s).1 = .ok cursor) :
    ∃ s', s.SameFiles s' ∧
      (t.delete q).run s =
        (((s.bucket t.bucketName).deleteAll (cursor.files.map (·.id))).2.map fun _ => cursor.files.length,
          s'.setBucket t.bucketName ((s.bucket t.bucketName).deleteAll (cursor.files.map (·.id))).1) := by
  obtain ⟨s', hsame, hrun⟩ := t.find_asked q s
  refine ⟨s', hsame, ?_⟩
  rw [delete_run, hrun, h]
  simp only [hsame.buckets]

/-- A bucket set to the rest of its files has lost those that are gone. -/
theorem loses_of_sameFiles {s s' : Store} (hs : s.SameFiles s') {name : String}
    (hb : (s.bucket name).Distinct) {gone : List StoredFile} (hgone : gone.Subperm (s.bucket name).files) :
    s.Loses name gone (s'.setBucket name ((s.bucket name).without (gone.map StoredFile.id))) where
  bucket := Store.bucket_setBucket ..
  files := by
    rw [Store.bucket_setBucket]
    exact Bucket.append_without_perm hb hgone
  others other hother := by rw [Store.bucket_setBucket_of_ne _ _ hother, hs.buckets]
  uploads := hs.uploads
  engine := hs.engine

section

variable {t : Template} {q : Option Query} {s : Store} (hs : s.Reachable) {cursor : Cursor}
  (h : ((t.find q).run s).1 = .ok cursor)

include hs h

/-- A deletion that the bucket does not refuse removes what its lookup lists, and counts it. -/
theorem delete_of_found :
    ((t.delete q).run s).1 = .ok cursor.files.length ∧
      s.Loses t.bucketName cursor.files ((t.delete q).run s).2 := by
  have hsound := hs.sound t.bucketName
  have hlisted := Bucket.lookup_subperm (find_eq_ok h).2
  obtain ⟨s', hsame, hrun⟩ := delete_run_ok h
  have hall : (s.bucket t.bucketName).deleteAll (cursor.files.map (·.id)) =
      ((s.bucket t.bucketName).without (cursor.files.map (·.id)), .ok ()) := by
    refine Bucket.deleteAll_eq hsound.distinct (hsound.distinct.nodup_ids hlisted) ?_ ?_
    · intro i hi
      obtain ⟨f, hf, rfl⟩ := List.mem_map.mp hi
      exact List.mem_map_of_mem (hlisted.subset hf)
    · simp [hsound.deleteLimit]
  rw [hrun, hall]
  exact ⟨rfl, loses_of_sameFiles hsame hsound.distinct hlisted⟩

/-- After a deletion that pages nothing the same deletion finds nothing to delete. -/
theorem delete_again (hq : PagesNothing q) :
    ((t.delete q).run ((t.delete q).run s).2).1 = .ok 0 ∧
      ((t.delete q).run s).2.SameFiles ((t.delete q).run ((t.delete q).run s).2).2 := by
  obtain ⟨hl, hfiles⟩ := find_eq_ok h
  obtain ⟨hskip, hlimit⟩ := lookupFor_paging hl hq
  have hloses := (delete_of_found hs h).2
  generalize ((t.delete q).run s).2 = s₁ at hloses ⊢
  have hnone : (s₁.bucket t.bucketName).lookup s₁.engine cursor.lookup = .ok [] := by
    rw [hloses.bucket, hloses.engine]
    exact Bucket.lookup_without hfiles hskip hlimit
  have hfind : ((t.find q).run s₁).1 = .ok { lookup := cursor.lookup, files := [] } := by
    rw [find_run, hl]
    simp only [hnone, Except.map]
  obtain ⟨s₂, hsame, hrun⟩ := delete_run_ok hfind
  rw [hrun]
  refine ⟨rfl, fun name => ?_, hsame.uploads, hsame.engine⟩
  by_cases hname : name = t.bucketName
  · subst hname
    exact Store.bucket_setBucket ..
  · rw [Store.bucket_setBucket_of_ne _ _ hname, hsame.buckets]

/-- A deletion stops where the bucket refuses, and has removed the files in front. -/
theorem delete_refused {k : Nat} {f : StoredFile} (hk : cursor.files[k]? = some f) :
    ((t.delete q).run (s.refuseDeletions t.bucketName k)).1 =
        .error (.noFile s!"simulated failure deleting {f.id.render}") ∧
      (s.refuseDeletions t.bucketName k).Loses t.bucketName (cursor.files.take k)
        ((t.delete q).run (s.refuseDeletions t.bucketName k)).2 := by
  have hsound := hs.sound t.bucketName
  have hlisted := Bucket.lookup_subperm (find_eq_ok h).2
  have hbucket : (s.refuseDeletions t.bucketName k).bucket t.bucketName =
      { s.bucket t.bucketName with
        deleteLimit := some ((s.bucket t.bucketName).deleted.length + k) } :=
    Store.bucket_setBucket ..
  have hengine : (s.refuseDeletions t.bucketName k).engine = s.engine := rfl
  generalize hs₁ : s.refuseDeletions t.bucketName k = s₁ at hbucket hengine ⊢
  have hdistinct : (s₁.bucket t.bucketName).Distinct := by
    rw [hbucket]
    exact hsound.distinct
  have hfront : (cursor.files.take k).Subperm (s₁.bucket t.bucketName).files := by
    rw [hbucket]
    exact (List.take_sublist k cursor.files).subperm.trans hlisted
  obtain ⟨hlt, hget⟩ := List.getElem?_eq_some_iff.mp hk
  have hlength : (cursor.files.take k).length = k := by
    rw [List.length_take]
    omega
  have hsplit : cursor.files.map (·.id) =
      (cursor.files.take k).map (·.id) ++ f.id :: (cursor.files.drop (k + 1)).map (·.id) := by
    rw [← List.map_cons, ← List.map_append, ← hget, List.getElem_cons_drop, List.take_append_drop]
  have hfind : ((t.find q).run s₁).1 = .ok cursor := by
    refine (t.find_answer q ?_ hengine).trans h
    rw [hbucket]
  obtain ⟨s', hsame, hrun⟩ := delete_run_ok hfind
  have hall : (s₁.bucket t.bucketName).deleteAll (cursor.files.map (·.id)) =
      ((s₁.bucket t.bucketName).without ((cursor.files.take k).map (·.id)),
        .error (.noFile s!"simulated failure deleting {f.id.render}")) := by
    rw [hsplit]
    refine Bucket.deleteAll_refused hdistinct (hdistinct.nodup_ids hfront) ?_ ?_
    · intro i hi
      obtain ⟨g, hg, rfl⟩ := List.mem_map.mp hi
      exact List.mem_map_of_mem (hfront.subset hg)
    · rw [hbucket, List.length_map, hlength]
  rw [hrun, hall]
  exact ⟨rfl, loses_of_sameFiles hsame hdistinct hfront⟩

end

/-- **Deletions remove what lookups list.** If the lookup of a query fails, its deletion fails in the same way
    and changes no bucket. Otherwise the deletion counts the files that the lookup lists and removes exactly
    these; without paging the same deletion then finds nothing. If the bucket refuses one of the deletions,
    exactly the files listed in front of that one are gone. -/
theorem delete_removes_found {s : Store} (hs : s.Reachable) (t : Template) (q : Option Query) :
    (∀ e, ((t.find q).run s).1 = .error e →
      ((t.delete q).run s).1 = .error e ∧ s.SameFiles ((t.delete q).run s).2) ∧
    ∀ cursor, ((t.find q).run s).1 = .ok cursor →
      (((t.delete q).run s).1 = .ok cursor.files.length ∧
        s.Loses t.bucketName cursor.files ((t.delete q).run s).2) ∧
      (PagesNothing q →
        ((t.delete q).run ((t.delete q).run s).2).1 = .ok 0 ∧
          ((t.delete q).run s).2.SameFiles ((t.delete q).run ((t.delete q).run s).2).2) ∧
      ∀ k f, cursor.files[k]? = some f →
        ((t.delete q).run (s.refuseDeletions t.bucketName k)).1 =
            .error (.noFile s!"simulated failure deleting {f.id.render}") ∧
          (s.refuseDeletions t.bucketName k).Loses t.bucketName (cursor.files.take k)
            ((t.delete q).run (s.refuseDeletions t.bucketName k)).2 := by
  refine ⟨fun e he => delete_run_error he, fun cursor hcursor => ⟨delete_of_found hs hcursor, ?_, ?_⟩⟩
  · exact delete_again hs hcursor
  · exact fun k f hk => delete_refused hs hcursor hk

/-- Of three uploads two have one name; a deletion by that name removes these two. -/
theorem delete_of_shared_name :
    let uploads : List Store.Action := [.upload "fs" (.text "a") [1] none .null,
      .upload "fs" (.text "b") [2] none .null, .upload "fs" (.text "a") [3, 4] none .null]
    let s := uploads.foldl Store.Action.after {}
    let t : Template := {}
    let q := some (byName "a")
    ∃ cursor, ((t.find q).run s).1 = .ok cursor ∧ cursor.files.map (·.id.value) = [1, 3] ∧
      ((t.delete q).run s).1 = .ok 2 ∧ s.Loses "fs" cursor.files ((t.delete q).run s).2 := by
  intro uploads s t q
  have hids : ((t.find q).run s).1.map (fun cursor => cursor.files.map (·.id.value)) = .ok [1, 3] := by
    decide +kernel
  rcases hfind : ((t.find q).run s).1 with e | cursor
  · simp [hfind, Except.map] at hids
  · rw [hfind] at hids
    have hfiles : cursor.files.map (·.id.value) = [1, 3] := Except.ok.inj hids
    have hlength : cursor.files.length = 2 := by simpa using congrArg List.length hfiles
    obtain ⟨⟨hcount, hloses⟩, -⟩ :=
      (delete_removes_found (Store.Reachable.empty.run uploads) t q).2 cursor hfind
    exact ⟨cursor, rfl, hfiles, hlength ▸ hcount, hloses⟩

end Template

end FileDepot
