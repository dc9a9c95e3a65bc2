import FileDepot.Proofs.Store.Resolution

/-!
# Histories of a store

A caller who writes down every upload that succeeds knows what the buckets hold: the receipts in the order of
the uploads, without those whose identifiers have been deleted, are the files.

Contents:

* `Receipt`, `Store.receipts` — what a run of actions tells its caller;
* `Store.Gains`, `Store.Became`, `Store.action_became` — all that an action can do to the files;
* `Store.Accounts` — the receipts tell what the buckets hold, with `Accounts.step` and `Accounts.run`;
* `Store.receipts_account` — they do so after every run from the empty store.
-/

namespace FileDepot

/-- What its caller knows about an upload that has succeeded. -/
structure Receipt where
  bucket : String
  id : ObjectId
  filename : String
  content : Bytes
  deriving Repr, DecidableEq, Inhabited

/-- The receipt of a file in a bucket. -/
def StoredFile.receipt (f : StoredFile) (bucket : String) : Receipt :=
  { bucket := bucket, id := f.id, filename := f.filename, content := f.content }

namespace Store

/-- The receipt of an action on a store, if it is an upload that succeeds. -/
def Action.receipt? (s : Store) : Action → Option Receipt
  | .upload bucket filename content chunkSize metadata =>
    match ((Store.upload bucket filename content chunkSize metadata).run s).1, filename.text? with
    | .ok i, some name => some { bucket := bucket, id := i, filename := name, content := content }
    | _, _ => none
  | .store t content filename contentType metadata =>
    match ((t.store content filename contentType metadata).run s).1, content,
      (Template.nameOf filename).text? with
    | .ok u, some content, some name =>
      some { bucket := t.bucketName, id := u.id, filename := name, content := content }
    | _, _, _ => none
  | _ => none

/-- The receipts of actions one after another. -/
def receipts (s : Store) : List Action → List Receipt
  | [] => []
  | a :: actions => (a.receipt? s).toList ++ receipts (a.after s) actions

/-! ## What an action does -/

/-- The buckets have the same files, and the same deletions behind them. -/
structure Untouched (s s' : Store) : Prop where
  files : ∀ name, (s'.bucket name).files = (s.bucket name).files
  deleted : ∀ name, (s'.bucket name).deleted = (s.bucket name).deleted
  uploads : s'.uploads = s.uploads

/-- A bucket has one more file, which comes last and has the identifier of the next upload, and nothing else
    has changed. -/
structure Gains (s : Store) (name : String) (f : StoredFile) (s' : Store) : Prop where
  id : f.id = ⟨s.uploads + 1⟩
  bucket : s'.bucket name = (s.bucket name).add f
  others : ∀ other, other ≠ name → s'.bucket other = s.bucket other
  uploads : s'.uploads = s.uploads + 1

/-- All that an action can do to the files, with its receipt. -/
inductive Became (s s' : Store) : Option Receipt → Prop
  | untouched (h : s.Untouched s') : Became s s' none
  | gained {name : String} {f : StoredFile} (h : s.Gains name f s') : Became s s' (some (f.receipt name))
  | lost {name : String} {gone : List StoredFile} (h : s.Loses name gone s') : Became s s' none

theorem SameFiles.untouched {s s' : Store} (h : s.SameFiles s') : s.Untouched s' where
  files name := by rw [h.buckets]
  deleted name := by rw [h.buckets]
  uploads := h.uploads

theorem Untouched.trans {s s' s'' : Store} (h : s.Untouched s') (h' : s'.Untouched s'') :
    s.Untouched s'' where
  files name := (h'.files name).trans (h.files name)
  deleted name := (h'.deleted name).trans (h.deleted name)
  uploads := h'.uploads.trans h.uploads

theorem untouched_asked (s : Store) (name : String) : s.Untouched (s.asked name) :=
  ⟨fun _ => rfl, fun _ => rfl, rfl⟩

/-- Setting a bucket to one with the same files and deletions touches nothing. -/
theorem untouched_setBucket {s : Store} {name : String} {b : Bucket}
    (hfiles : b.files = (s.bucket name).files) (hdeleted : b.deleted = (s.bucket name).deleted) :
    s.Untouched (s.setBucket name b) := by
  have hbucket (other : String) : (s.setBucket name b).bucket other = s.bucket other ∨
      other = name ∧ (s.setBucket name b).bucket other = b := by
    by_cases hother : other = name
    · subst hother
      exact .inr ⟨rfl, bucket_setBucket ..⟩
    · exact .inl (bucket_setBucket_of_ne s b hother)
  refine ⟨fun other => ?_, fun other => ?_, rfl⟩
  · rcases hbucket other with hsame | ⟨rfl, hset⟩
    · rw [hsame]
    · rw [hset, hfiles]
  · rcases hbucket other with hsame | ⟨rfl, hset⟩
    · rw [hsame]
    · rw [hset, hdeleted]

theorem gains_withFile (s : Store) (name : String) {f : StoredFile} (hid : f.id = ⟨s.uploads + 1⟩) :
    s.Gains name f (s.withFile name f) where
  id := hid
  bucket := bucket_withFile s name f
  others _ hother := bucket_withFile_of_ne s f hother
  uploads := rfl

theorem Gains.of_asked {s s' : Store} {asked name : String} {f : StoredFile}
    (h : (s.asked asked).Gains name f s') : s.Gains name f s' :=
  ⟨h.id, h.bucket, h.others, h.uploads⟩

theorem Gains.sound {s s' : Store} {name : String} {f : StoredFile} (h : s.Gains name f s') (hs : s.Sound) :
    s'.Sound := by
  intro other
  rw [h.uploads]
  by_cases hother : other = name
  · subst hother
    rw [h.bucket]
    exact (hs other).add h.id
  · rw [h.others other hother]
    exact (hs other).mono (Nat.le_succ _)

/-! ## Steps that touch nothing -/

end Store

theorem Bucket.openByName_files (b : Bucket) (name : String) :
    (b.openByName name).1.files = b.files ∧ (b.openByName name).1.deleted = b.deleted := by
  rw [openByName]
  split
  · exact ⟨rfl, rfl⟩
  · split <;> exact ⟨rfl, rfl⟩

namespace Template

theorem openStream_untouched (t : Template) (name : String) (s : Store) :
    s.Untouched ((t.openStream name).run s).2 := by
  obtain ⟨hfiles, hdeleted⟩ := (s.bucket t.bucketName).openByName_files name
  rw [openStream_run]
  exact Store.untouched_setBucket hfiles hdeleted

theorem resource_untouched (t : Template) (location : String) (s : Store) :
    s.Untouched ((t.resource location).run s).2 := by
  have hfound := (t.find_store (some (byName location)) s).untouched
  rw [resource_run, findOne_run]
  rcases hrun : (t.find (some (byName location))).run s with ⟨answer, s'⟩
  rw [hrun] at hfound
  cases answer with
  | error e => exact hfound
  | ok cursor =>
    simp only
    cases cursor.files.head? with
    | none => exact hfound
    | some f =>
      have hopened := t.openStream_untouched location (s'.asked t.bucketName)
      simp only
      rcases hopen : (t.openStream location).run (s'.asked t.bucketName) with ⟨answer, s''⟩
      rw [hopen] at hopened
      have hall := (hfound.trans (s'.untouched_asked t.bucketName)).trans hopened
      cases answer <;> exact hall

theorem resources_untouched (t : Template) (pattern : Option String) (s : Store) :
    s.Untouched ((t.resources pattern).run s).2 := by
  by_cases hnone : ∀ path ∈ pattern, Text.isBlankText path = true
  · rw [t.resources_run_blank hnone]
    exact ⟨fun _ => rfl, fun _ => rfl, rfl⟩
  · obtain ⟨path, hpath, hblank⟩ : ∃ path, pattern = some path ∧ Text.isBlankText path = false := by
      simpa using hnone
    subst hpath
    cases hwild : (Glob.withSeparator path none).hasWildcard with
    | false =>
      have hresolved := t.resource_untouched path s
      rw [t.resources_run_name hblank hwild]
      rcases hrun : (t.resource path).run s with ⟨answer, s'⟩
      rw [hrun] at hresolved
      cases answer <;> exact hresolved
    | true =>
      let q := byExpression (Glob.withSeparator path none).expression
      have hfound := (t.find_store (some q) (s.asked t.bucketName)).untouched
      rw [t.resources_run_pattern hblank hwild]
      rcases hrun : (t.find (some q)).run (s.asked t.bucketName) with ⟨answer, s'⟩
      rw [hrun] at hfound
      have hasked := (s.untouched_asked t.bucketName).trans hfound
      cases answer with
      | error e => exact hasked
      | ok cursor =>
        refine openEach_keeps (fun f s' (hs' : s.Untouched s') => ?_) _ _ _ hasked
        exact hs'.trans (t.openStream_untouched f.filename s')

end Template

namespace Store

/-- An action touches nothing, adds one file, which its receipt tells, or takes files away. -/
theorem action_became {s : Store} (hs : s.Reachable) (a : Action) :
    s.Became (a.after s) (a.receipt? s) := by
  cases a with
  | upload bucket filename content chunkSize metadata =>
    rw [Action.after, Action.receipt?, upload_run]
    cases filename.text? with
    | none => exact .untouched ⟨fun _ => rfl, fun _ => rfl, rfl⟩
    | some name => exact .gained (s.gains_withFile bucket rfl)
  | store t content filename contentType metadata =>
    simp only [Action.after, Action.receipt?, t.store_run]
    cases content with
    | none => exact .untouched ⟨fun _ => rfl, fun _ => rfl, rfl⟩
    | some content =>
      cases t.metadataOf contentType metadata with
      | error e => exact .untouched ⟨fun _ => rfl, fun _ => rfl, rfl⟩
      | ok es =>
        cases (Template.nameOf filename).text? with
        | none => exact .untouched ⟨fun _ => rfl, fun _ => rfl, rfl⟩
        | some name =>
          let f := s.nextFile name content t.namedChunkSize (.document es)
          have hgains : (s.asked t.bucketName).Gains t.bucketName f _ := gains_withFile _ _ rfl
          exact .gained hgains.of_asked
  | find t q => exact .untouched (t.find_store q s).untouched
  | delete t q =>
    rcases hfind : ((t.find q).run s).1 with e | cursor
    · exact .untouched (Template.delete_run_error hfind).2.untouched
    · exact .lost (Template.delete_of_found hs hfind).2
  | resource t location => exact .untouched (t.resource_untouched location s)
  | resources t pattern => exact .untouched (t.resources_untouched pattern s)

/-! ## Receipts and files -/

/-- The receipts for a bucket whose files have not been deleted. -/
def surviving (s : Store) (name : String) (rs : List Receipt) : List Receipt :=
  rs.filter fun r => r.bucket == name && !(s.bucket name).deleted.contains r.id

/-- The receipts tell what the buckets hold, and identifiers have been given out one after another. -/
structure Accounts (s : Store) (rs : List Receipt) : Prop where
  files : ∀ name, (s.bucket name).files.map (·.receipt name) = s.surviving name rs
  issued : ∀ r ∈ rs, r.id.value ≤ s.uploads
  deleted : ∀ name, ∀ i ∈ (s.bucket name).deleted, i.value ≤ s.uploads

theorem accounts_empty (engine : Engine) : Accounts { engine } [] where
  files _ := rfl
  issued := by simp
  deleted := by simp [bucket]

theorem surviving_congr {s s' : Store} {name : String}
    (h : (s'.bucket name).deleted = (s.bucket name).deleted) (rs : List Receipt) :
    s'.surviving name rs = s.surviving name rs := by
  rw [surviving, surviving, h]

theorem Accounts.untouched {s s' : Store} {rs : List Receipt} (h : s.Accounts rs) (hs : s.Untouched s') :
    s'.Accounts rs where
  files name := by rw [hs.files, h.files, surviving_congr (hs.deleted name)]
  issued r hr := hs.uploads ▸ h.issued r hr
  deleted name i hi := by
    rw [hs.deleted] at hi
    exact hs.uploads ▸ h.deleted name i hi

/-- The receipt of a new file survives in its bucket and counts in no other one. -/
theorem surviving_of_gains {s s' : Store} {name : String} {f : StoredFile} {rs : List Receipt}
    (h : s.Accounts rs) (hs : s.Gains name f s') (other : String) :
    s'.surviving other (rs ++ [f.receipt name]) =
      s.surviving other rs ++ if other = name then [f.receipt name] else [] := by
  by_cases hother : other = name
  · subst hother
    have hdeleted : (s'.bucket other).deleted = (s.bucket other).deleted := by
      rw [hs.bucket]
      rfl
    have hnew : f.id ∉ (s.bucket other).deleted := by
      intro hi
      have hle := h.deleted other f.id hi
      rw [hs.id] at hle
      exact Nat.not_succ_le_self s.uploads hle
    rw [surviving_congr hdeleted, surviving, surviving, List.filter_append]
    simp [StoredFile.receipt, hnew]
  · have hdeleted : (s'.bucket other).deleted = (s.bucket other).deleted := by
      rw [hs.others other hother]
    rw [surviving_congr hdeleted, surviving, surviving, List.filter_append]
    simp [StoredFile.receipt, hother, Ne.symm hother]

theorem Accounts.gained {s s' : Store} {name : String} {f : StoredFile} {rs : List Receipt}
    (h : s.Accounts rs) (hs : s.Gains name f s') : s'.Accounts (rs ++ [f.receipt name]) where
  files other := by
    rw [surviving_of_gains h hs, ← h.files]
    by_cases hother : other = name
    · subst hother
      simp [hs.bucket, Bucket.add]
    · simp [hs.others other hother, hother]
  issued r hr := by
    rw [hs.uploads]
    rcases List.mem_append.mp hr with hr | hr
    · exact Nat.le_succ_of_le (h.issued r hr)
    · rw [List.mem_singleton.mp hr]
      exact Nat.le_of_eq (congrArg ObjectId.value hs.id)
  deleted other i hi := by
    rw [hs.uploads]
    have hdeleted : (s'.bucket other).deleted = (s.bucket other).deleted := by
      by_cases hother : other = name
      · subst hother
        rw [hs.bucket]
        rfl
      · rw [hs.others other hother]
    exact Nat.le_succ_of_le (h.deleted other i (hdeleted ▸ hi))

/-- The identifier of a file has been given out. -/
theorem Accounts.counted {s : Store} {rs : List Receipt} (h : s.Accounts rs) {name : String}
    {f : StoredFile} (hf : f ∈ (s.bucket name).files) : f.id.value ≤ s.uploads := by
  have hreceipt : f.receipt name ∈ s.surviving name rs := by
    rw [← h.files]
    exact List.mem_map_of_mem hf
  exact h.issued _ (List.mem_of_mem_filter hreceipt)

theorem Accounts.lost {s s' : Store} {name : String} {gone : List StoredFile} {rs : List Receipt}
    (h : s.Accounts rs) (hs : s.Loses name gone s') : s'.Accounts rs where
  files other := by
    by_cases hother : other = name
    · subst hother
      rw [surviving, hs.bucket]
      simp only [Bucket.without, List.contains_append, Bool.not_or]
      -- the receipts that survive the new deletions are those of the files that do
      have hfiles : ((s.bucket other).files.filter fun f => !(gone.map StoredFile.id).contains f.id).map
          (·.receipt other) = ((s.bucket other).files.map (·.receipt other)).filter
            fun r => !(gone.map StoredFile.id).contains r.id := by
        rw [List.filter_map]
        rfl
      rw [hfiles, h.files, surviving, List.filter_filter]
      refine List.filter_congr fun r _ => ?_
      rw [Bool.and_comm, Bool.and_assoc]
    · rw [hs.others other hother, h.files, surviving_congr]
      rw [hs.others other hother]
  issued r hr := hs.uploads ▸ h.issued r hr
  deleted other i hi := by
    rw [hs.uploads]
    by_cases hother : other = name
    · subst hother
      rw [hs.bucket] at hi
      rcases List.mem_append.mp hi with hi | hi
      · exact h.deleted other i hi
      · obtain ⟨f, hf, rfl⟩ := List.mem_map.mp hi
        exact h.counted (hs.files.subset (List.mem_append_left _ hf))
    · rw [hs.others other hother] at hi
      exact h.deleted other i hi

/-- Every action keeps the receipts, with its own one, telling what the buckets hold. -/
theorem Accounts.step {s : Store} {rs : List Receipt} (h : s.Accounts rs) (hs : s.Reachable) (a : Action) :
    (a.after s).Accounts (rs ++ (a.receipt? s).toList) := by
  have hbecame := action_became hs a
  generalize a.receipt? s = receipt at hbecame ⊢
  cases hbecame with
  | untouched hsame => simpa using h.untouched hsame
  | gained hgains => exact h.gained hgains
  | lost hloses => simpa using h.lost hloses

theorem Accounts.run {s : Store} {rs : List Receipt} (h : s.Accounts rs) (hs : s.Reachable)
    (actions : List Action) : (actions.foldl Action.after s).Accounts (rs ++ s.receipts actions) := by
  induction actions generalizing s rs with
  | nil => simpa [receipts] using h
  | cons a actions ih =>
    have hrest := ih (h.step hs a) (hs.step a)
    rwa [List.append_assoc] at hrest

/-- **The receipts of a run tell what the buckets hold after it.** -/
theorem receipts_account (engine : Engine) (actions : List Action) :
    (actions.foldl Action.after { engine }).Accounts (receipts { engine } actions) :=
  (accounts_empty engine).run (.start engine) actions

end Store

end FileDepot
