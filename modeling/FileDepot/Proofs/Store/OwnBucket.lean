import FileDepot.Proofs.Store.Reachable

/-!
# A template works in its own bucket

Of all the buckets of a store a template asks for one, by the name that it has been given. It changes no other, and what
it answers depends on no other.

Contents:

* `Store.Confined` — one bucket alone has been asked for and changed;
* `Store.Alike` — two stores that show the same in one bucket;
* `Store.WorksIn` — a step that does no more than that, and depends on no more, with what such steps are made of;
* `Template.store_worksIn`, `Template.find_worksIn`, … — the operations of a template;
* `Template.keepsTo` — all of them together;
* `Store.Action.confined`, `Store.Confined.run` — actions through one template, one after another.
-/

namespace FileDepot

namespace Store

/-- From one store to another only this bucket has been asked for, and every other bucket is as it was. -/
structure Confined (name : String) (s s' : Store) : Prop where
  requested : ∃ n, s'.requested = s.requested ++ List.replicate n name
  others : ∀ other, other ≠ name → s'.bucket other = s.bucket other

/-- The stores have the same bucket under the name, count the same uploads, and have the same answers for patterns that
are not read. -/
structure Alike (name : String) (s s' : Store) : Prop where
  bucket : s.bucket name = s'.bucket name
  uploads : s.uploads = s'.uploads
  engine : s.engine = s'.engine

/-- The step works in one bucket: it asks for no other and changes no other, and where this one is the same it answers
the same and leaves it the same. -/
structure WorksIn {α : Type} (name : String) (step : Store → α × Store) : Prop where
  confined : ∀ s, Confined name s (step s).2
  alike : ∀ s s', Alike name s s' → (step s).1 = (step s').1 ∧ Alike name (step s).2 (step s').2

namespace Confined

variable {name : String} {s s' s'' : Store}

theorem refl (name : String) (s : Store) : Confined name s s :=
  ⟨⟨0, by simp⟩, fun _ _ => rfl⟩

theorem trans (h : Confined name s s') (h' : Confined name s' s'') : Confined name s s'' where
  requested := by
    obtain ⟨n, hn⟩ := h.requested
    obtain ⟨m, hm⟩ := h'.requested
    exact ⟨n + m, by rw [hm, hn, List.append_assoc, List.replicate_append_replicate]⟩
  others other hother := (h'.others other hother).trans (h.others other hother)

theorem asked (name : String) (s : Store) : Confined name s (s.asked name) :=
  ⟨⟨1, rfl⟩, fun _ _ => rfl⟩

theorem setBucket (name : String) (s : Store) (b : Bucket) : Confined name s (s.setBucket name b) :=
  ⟨⟨0, by simp [Store.setBucket]⟩, fun _ hother => bucket_setBucket_of_ne s b hother⟩

theorem withFile (name : String) (s : Store) (f : StoredFile) : Confined name s (s.withFile name f) :=
  ⟨⟨0, by simp [Store.withFile, modifyBucket, Store.setBucket]⟩, fun _ hother => bucket_withFile_of_ne s f hother⟩

end Confined

/-! ## Steps in one bucket -/

namespace WorksIn

variable {name : String} {α β : Type}

theorem pure (a : α) : WorksIn name (pure a : StoreM α).run :=
  ⟨fun s => .refl name s, fun _ _ h => ⟨rfl, h⟩⟩

theorem throw (e : Failure) : WorksIn name (throw e : StoreM α).run :=
  ⟨fun s => .refl name s, fun _ _ h => ⟨rfl, h⟩⟩

theorem liftM (x : Except Failure α) : WorksIn name (liftM x : StoreM α).run := by
  refine ⟨fun s => ?_, fun s s' h => ?_⟩
  · rw [Step.run_liftM]
    exact .refl name s
  · rw [Step.run_liftM, Step.run_liftM]
    exact ⟨rfl, h⟩

theorem request : WorksIn name (request name).run :=
  ⟨fun s => .asked name s, fun _ _ h => ⟨congrArg Except.ok h.bucket, h.bucket, h.uploads, h.engine⟩⟩

/-- A step after another one in the same bucket. -/
theorem bind {m : StoreM α} {f : α → StoreM β} (hm : WorksIn name m.run) (hf : ∀ a, WorksIn name (f a).run) :
    WorksIn name (m >>= f).run where
  confined s := by
    have hs := hm.confined s
    rw [Step.run_bind]
    rcases hrun : m.run s with ⟨answer, after⟩
    rw [hrun] at hs
    cases answer with
    | ok a => exact hs.trans ((hf a).confined after)
    | error e => exact hs
  alike s s' h := by
    obtain ⟨hanswer, halike⟩ := hm.alike s s' h
    rw [Step.run_bind, Step.run_bind]
    rcases hrun : m.run s with ⟨answer, after⟩
    rcases hrun' : m.run s' with ⟨answer', after'⟩
    rw [hrun, hrun'] at hanswer halike
    obtain rfl : answer = answer' := hanswer
    cases answer with
    | ok a => exact (hf a).alike after after' halike
    | error e => exact ⟨rfl, halike⟩

/-- A step that cannot fail is followed by another one in the same bucket. -/
theorem next {m : StateM Store α} {f : α → StateM Store β} (hm : WorksIn name m.run)
    (hf : ∀ a, WorksIn name (f a).run) : WorksIn name (m >>= f).run where
  confined s := (hm.confined s).trans ((hf (m.run s).1).confined (m.run s).2)
  alike s s' h := by
    obtain ⟨hanswer, halike⟩ := hm.alike s s' h
    rw [Step.run_then, Step.run_then, hanswer]
    exact (hf (m.run s').1).alike _ _ halike

theorem done (a : α) : WorksIn name (StateT.pure a : StateM Store α).run :=
  ⟨fun s => .refl name s, fun _ _ h => ⟨rfl, h⟩⟩

/-- What changes the bucket by what is in it. -/
theorem ofBucket {step : Store → α × Store} {f : Bucket → Bucket × α}
    (h : ∀ s, step s = ((f (s.bucket name)).2, s.setBucket name (f (s.bucket name)).1)) : WorksIn name step where
  confined s := by
    rw [h]
    exact .setBucket name s _
  alike s s' hs := by
    rw [h, h, hs.bucket]
    refine ⟨rfl, ?_, hs.uploads, hs.engine⟩
    rw [bucket_setBucket, bucket_setBucket]

theorem upload (filename : Value) (content : Bytes) (chunkSize : Option Int) (metadata : Value) :
    WorksIn name (upload name filename content chunkSize metadata).run where
  confined s := by
    rw [upload_run]
    cases filename.text? with
    | none => exact .refl name s
    | some text => exact .withFile name s _
  alike s s' h := by
    rw [upload_run, upload_run]
    cases filename.text? with
    | none => exact ⟨rfl, h⟩
    | some text =>
      have hfile : s.nextFile text content chunkSize metadata = s'.nextFile text content chunkSize metadata := by
        unfold nextFile
        rw [h.uploads]
      refine ⟨by simp only [h.uploads], ?_, congrArg (· + 1) h.uploads, h.engine⟩
      simp only [bucket_withFile, hfile, h.bucket]

end WorksIn

end Store

/-! ## The operations of a template -/

namespace Template

open Store (WorksIn)

variable (t : Template)

theorem request_worksIn : WorksIn t.bucketName t.request.run :=
  WorksIn.request

theorem store_worksIn (content : Option Bytes) (filename contentType metadata : Value) :
    WorksIn t.bucketName (t.store content filename contentType metadata).run := by
  unfold store
  cases content with
  | none => exact .throw _
  | some content =>
    refine WorksIn.bind (.liftM _) fun es => WorksIn.bind t.request_worksIn fun _ => ?_
    exact WorksIn.bind (.upload _ _ _ _) fun id => .pure _

theorem search_worksIn (l : Lookup) : WorksIn t.bucketName (t.search l).run where
  confined s := by
    rw [search_run]
    exact .asked _ s
  alike s s' h := by
    rw [search_run, search_run, h.bucket, h.engine]
    exact ⟨rfl, h.bucket, h.uploads, h.engine⟩

theorem find_worksIn (q : Option Query) : WorksIn t.bucketName (t.find q).run := by
  unfold find findTelling
  cases q with
  | none => exact t.search_worksIn {}
  | some q =>
    refine WorksIn.bind (.liftM _) fun l => WorksIn.bind (.liftM _) fun _ => ?_
    exact WorksIn.bind (.pure _) fun _ => t.search_worksIn l

theorem findOne_worksIn (q : Option Query) : WorksIn t.bucketName (t.findOne q).run :=
  WorksIn.bind (t.find_worksIn q) fun _ => .pure _

theorem openStream_worksIn (name : String) : WorksIn t.bucketName (t.openStream name).run :=
  .ofBucket (f := fun b => b.openByName name) (t.openStream_run name)

theorem deleteListed_worksIn (cursor : Cursor) : WorksIn t.bucketName (t.deleteListed cursor).run :=
  .ofBucket (f := fun b => b.deleteAll (cursor.files.map (·.id))) (t.deleteListed_run cursor)

theorem delete_worksIn (q : Option Query) : WorksIn t.bucketName (t.delete q).run := by
  unfold delete deleteTelling
  refine WorksIn.bind t.request_worksIn fun _ => WorksIn.bind (t.find_worksIn q) fun cursor => ?_
  exact WorksIn.bind (t.deleteListed_worksIn cursor) fun _ => WorksIn.bind (.pure _) fun _ => .pure _

theorem resource_worksIn (location : String) : WorksIn t.bucketName (t.resource location).run := by
  unfold resource resourceTelling
  refine WorksIn.bind (t.findOne_worksIn _) fun found => ?_
  obtain ⟨cursor, file⟩ := found
  cases file with
  | none => exact WorksIn.bind (.pure _) fun _ => .pure _
  | some f =>
    refine WorksIn.bind t.request_worksIn fun _ => ?_
    exact WorksIn.bind (t.openStream_worksIn _) fun stream => .pure _

/-- Resources are opened one after another in the bucket in which each of them is. -/
theorem openEach_worksIn {name : String} {openNext : StoredFile → Store → Except Failure ByteStream × Store}
    (hopen : ∀ f, WorksIn name (openNext f)) (opened : List Resource) (files : List StoredFile) :
    WorksIn name (openEach openNext opened files) := by
  induction files generalizing opened with
  | nil => exact .done _
  | cons f files ih =>
    refine ⟨fun s => ?_, fun s s' h => ?_⟩
    · have hs := (hopen f).confined s
      rw [openEach]
      rcases hrun : openNext f s with ⟨answer, after⟩
      rw [hrun] at hs
      cases answer with
      | ok stream => exact hs.trans ((ih _).confined after)
      | error e => exact hs
    · obtain ⟨hanswer, halike⟩ := (hopen f).alike s s' h
      rw [openEach, openEach]
      rcases hrun : openNext f s with ⟨answer, after⟩
      rcases hrun' : openNext f s' with ⟨answer', after'⟩
      rw [hrun, hrun'] at hanswer halike
      obtain rfl : answer = answer' := hanswer
      cases answer with
      | ok stream => exact (ih _).alike after after' halike
      | error e => exact ⟨rfl, halike⟩

theorem resources_worksIn (pattern : Option String) : WorksIn t.bucketName (t.resources pattern).run := by
  unfold resources resourcesTelling
  cases pattern with
  | none => exact .done _
  | some path =>
    simp only
    split
    · exact .done _
    · split
      · refine WorksIn.next (t.resource_worksIn _) fun found => ?_
        cases found <;> exact .done _
      · refine WorksIn.next (WorksIn.pure ()) fun told => ?_
        cases told with
        | error e => exact .done _
        | ok _ =>
          refine WorksIn.next t.request_worksIn fun _ => WorksIn.next (t.find_worksIn _) fun found => ?_
          cases found with
          | error e => exact .done _
          | ok cursor => exact openEach_worksIn (fun f => t.openStream_worksIn f.filename) [] cursor.files

end Template

/-! ## Templates -/

/-- Every operation of the template works in the bucket of this name. -/
structure Template.KeepsTo (t : Template) (name : String) : Prop where
  store : ∀ content filename contentType metadata,
    Store.WorksIn name (t.store content filename contentType metadata).run
  find : ∀ q, Store.WorksIn name (t.find q).run
  delete : ∀ q, Store.WorksIn name (t.delete q).run
  resource : ∀ location, Store.WorksIn name (t.resource location).run
  resources : ∀ pattern, Store.WorksIn name (t.resources pattern).run

/-- **A template keeps to its bucket.** -/
theorem Template.keepsTo (t : Template) : t.KeepsTo t.bucketName where
  store := t.store_worksIn
  find := t.find_worksIn
  delete := t.delete_worksIn
  resource := t.resource_worksIn
  resources := t.resources_worksIn

namespace Store

/-- The template through which an action is done. -/
def Action.through? : Action → Option Template
  | .upload .. => none
  | .store t .. | .find t _ | .delete t _ | .resource t _ | .resources t _ => some t

/-- An action through a template is confined to the bucket to which the template keeps. -/
theorem Action.confined {a : Action} {t : Template} {name : String} (ht : t.KeepsTo name)
    (h : a.through? = some t) (s : Store) : Confined name s (a.after s) := by
  cases a with
  | upload => cases h
  | store t' content filename contentType metadata =>
    obtain rfl := Option.some.inj h
    exact (ht.store content filename contentType metadata).confined s
  | find t' q =>
    obtain rfl := Option.some.inj h
    exact (ht.find q).confined s
  | delete t' q =>
    obtain rfl := Option.some.inj h
    exact (ht.delete q).confined s
  | resource t' location =>
    obtain rfl := Option.some.inj h
    exact (ht.resource location).confined s
  | resources t' pattern =>
    obtain rfl := Option.some.inj h
    exact (ht.resources pattern).confined s

/-- **A run of actions through one template** is confined to the bucket to which the template keeps. -/
theorem Confined.run {actions : List Action} {t : Template} {name : String} (ht : t.KeepsTo name)
    (h : ∀ a ∈ actions, a.through? = some t) (s : Store) : Confined name s (actions.foldl Action.after s) := by
  induction actions generalizing s with
  | nil => exact .refl _ s
  | cons a actions ih =>
    obtain ⟨ha, hactions⟩ := List.forall_mem_cons.mp h
    exact (Action.confined ht ha s).trans (ih hactions _)

end Store

end FileDepot
