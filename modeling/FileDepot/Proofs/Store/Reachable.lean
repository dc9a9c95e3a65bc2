import FileDepot.Proofs.Store.Bucket
import FileDepot.Proofs.Store.Steps

/-!
# Stores that can be reached

A store starts empty and changes by uploads, deletions and lookups, in any order and through any templates.
Identifiers count the uploads, so those of a bucket ascend in the order of the files, and no identifier is
used twice.

Contents:

* `Store.Action`, `Store.Reachable` — what can be done with a store, and what it can become;
* `Bucket.Sound`, `Store.Sound` — the invariant;
* `StoreM.Keeps` — a step that keeps it, with one lemma for each operation;
* `Store.Reachable.sound` — every store that can be reached satisfies it.
-/

namespace FileDepot

namespace Store

/-- What can be done with a store. -/
inductive Action
  /-- An upload to a bucket, not through a template. -/
  | upload (bucket : String) (filename : Value) (content : Bytes) (chunkSize : Option Int)
    (metadata : Value)
  | store (t : Template) (content : Option Bytes) (filename contentType metadata : Value)
  | find (t : Template) (q : Option Query)
  | delete (t : Template) (q : Option Query)
  | resource (t : Template) (location : String)
  | resources (t : Template) (pattern : Option String)

/-- The store that an action leaves, whether or not it succeeds. -/
def Action.after (s : Store) : Action → Store
  | .upload bucket filename content chunkSize metadata =>
    ((Store.upload bucket filename content chunkSize metadata).run s).2
  | .store t content filename contentType metadata =>
    ((t.store content filename contentType metadata).run s).2
  | .find t q => ((t.find q).run s).2
  | .delete t q => ((t.delete q).run s).2
  | .resource t location => ((t.resource location).run s).2
  | .resources t pattern => ((t.resources pattern).run s).2

/-- The stores that actions lead to from an empty one, whatever answers for patterns that are not read. -/
inductive Reachable : Store → Prop
  | start (engine : Engine) : Reachable { engine }
  | step {s : Store} (h : Reachable s) (a : Action) : Reachable (a.after s)

/-- The empty store can be reached. -/
theorem Reachable.empty : Reachable {} :=
  .start _

/-- Actions one after another lead from a store that can be reached to one that can be reached. -/
theorem Reachable.run {s : Store} (h : s.Reachable) (actions : List Action) :
    (actions.foldl Action.after s).Reachable := by
  induction actions generalizing s with
  | nil => exact h
  | cons a actions ih => exact ih (h.step a)

end Store

/-! ## The invariant -/

/-- The identifiers of the files ascend in the order of upload and belong to uploads that have been, and the
    bucket refuses nothing. -/
structure Bucket.Sound (uploads : Nat) (b : Bucket) : Prop where
  ascending : (b.files.map fun f => f.id.value).Pairwise (· < ·)
  counted : ∀ f ∈ b.files, f.id.value ≤ uploads
  deleteLimit : b.deleteLimit = none
  openLimit : b.openLimit = none

/-- Every bucket satisfies the invariant. -/
def Store.Sound (s : Store) : Prop :=
  ∀ name, (s.bucket name).Sound s.uploads

namespace Bucket

theorem Sound.distinct {uploads : Nat} {b : Bucket} (h : b.Sound uploads) : b.Distinct := by
  refine List.Nodup.of_map ObjectId.value ?_
  rw [List.map_map]
  exact h.ascending.imp Nat.ne_of_lt

theorem sound_empty (uploads : Nat) : Bucket.Sound uploads {} where
  ascending := .nil
  counted := by simp
  deleteLimit := rfl
  openLimit := rfl

theorem Sound.mono {m n : Nat} {b : Bucket} (h : b.Sound m) (hmn : m ≤ n) : b.Sound n where
  ascending := h.ascending
  counted f hf := Nat.le_trans (h.counted f hf) hmn
  deleteLimit := h.deleteLimit
  openLimit := h.openLimit

/-- A bucket stays sound when files go. -/
theorem Sound.of_sublist {uploads : Nat} {b b' : Bucket} (h : b.Sound uploads)
    (hfiles : b'.files.Sublist b.files) (hdelete : b'.deleteLimit = b.deleteLimit)
    (hopen : b'.openLimit = b.openLimit) : b'.Sound uploads where
  ascending := h.ascending.sublist (hfiles.map _)
  counted f hf := h.counted f (hfiles.subset hf)
  deleteLimit := hdelete.trans h.deleteLimit
  openLimit := hopen.trans h.openLimit

/-- A bucket stays sound when the file of a new upload comes. -/
theorem Sound.add {uploads : Nat} {b : Bucket} (h : b.Sound uploads) {f : StoredFile}
    (hf : f.id = ⟨uploads + 1⟩) : (b.add f).Sound (uploads + 1) where
  ascending := by
    rw [Bucket.add, List.map_append, List.pairwise_append]
    refine ⟨h.ascending, List.pairwise_singleton _ _, ?_⟩
    intro i hi j hj
    obtain ⟨g, hg, rfl⟩ := List.mem_map.mp hi
    obtain rfl := List.mem_singleton.mp hj
    have hcount := h.counted g hg
    have hnew : f.id.value = uploads + 1 := congrArg ObjectId.value hf
    simp only
    omega
  counted g hg := by
    rcases List.mem_append.mp hg with hg | hg
    · exact Nat.le_succ_of_le (h.counted g hg)
    · rw [List.mem_singleton.mp hg]
      exact Nat.le_of_eq (congrArg ObjectId.value hf)
  deleteLimit := h.deleteLimit
  openLimit := h.openLimit

theorem delete_sound {uploads : Nat} {b : Bucket} (h : b.Sound uploads) (i : ObjectId) :
    (b.delete i).1.Sound uploads := by
  rw [delete]
  split
  · exact h
  · split
    · exact h.of_sublist List.eraseP_sublist rfl rfl
    · exact h

theorem deleteAll_sound {uploads : Nat} {b : Bucket} (h : b.Sound uploads) (ids : List ObjectId) :
    (b.deleteAll ids).1.Sound uploads := by
  induction ids generalizing b with
  | nil => exact h
  | cons i ids ih =>
    have hdelete := delete_sound h i
    rw [deleteAll]
    rcases hrun : b.delete i with ⟨b', answer⟩
    rw [hrun] at hdelete
    cases answer with
    | ok _ => exact ih hdelete
    | error _ => exact hdelete

theorem openByName_sound {uploads : Nat} {b : Bucket} (h : b.Sound uploads) (name : String) :
    (b.openByName name).1.Sound uploads := by
  rw [openByName]
  split
  · exact h
  · split
    · exact h.of_sublist (.refl _) rfl rfl
    · exact h

end Bucket

namespace Store

theorem sound_empty : Sound {} :=
  fun _ => Bucket.sound_empty 0

theorem Sound.setBucket {s : Store} (h : s.Sound) {b : Bucket} (hb : b.Sound s.uploads)
    (name : String) : (s.setBucket name b).Sound := by
  intro other
  by_cases hother : other = name
  · subst hother
    rw [bucket_setBucket]
    exact hb
  · rw [bucket_setBucket_of_ne s b hother]
    exact h other

end Store

/-! ## Steps that keep it -/

/-- The step leaves a sound store sound, whether or not it succeeds. -/
def StoreM.Keeps {α : Type} (m : StoreM α) : Prop :=
  ∀ s : Store, s.Sound → (m.run s).2.Sound

namespace StoreM

variable {α β : Type}

theorem Keeps.bind {m : StoreM α} {f : α → StoreM β} (hm : m.Keeps) (hf : ∀ a, (f a).Keeps) :
    (m >>= f).Keeps := by
  intro s hs
  have hs' := hm s hs
  rw [Step.run_bind]
  rcases hrun : m.run s with ⟨answer, s'⟩
  rw [hrun] at hs'
  cases answer with
  | ok a => exact hf a s' hs'
  | error e => exact hs'

theorem keeps_pure (a : α) : (pure a : StoreM α).Keeps :=
  fun _ hs => hs

theorem keeps_throw (e : Failure) : (throw e : StoreM α).Keeps :=
  fun _ hs => hs

theorem keeps_liftM (x : Except Failure α) : (liftM x : StoreM α).Keeps := by
  intro s hs
  rw [Step.run_liftM]
  exact hs

end StoreM

namespace Store

theorem upload_keeps (name : String) (filename : Value) (content : Bytes) (chunkSize : Option Int)
    (metadata : Value) : (upload name filename content chunkSize metadata).Keeps := by
  intro s hs
  rw [upload_run]
  cases filename.text? with
  | none => exact hs
  | some text =>
    intro other
    by_cases hother : other = name
    · subst hother
      rw [bucket_withFile]
      exact (hs other).add rfl
    · rw [bucket_withFile_of_ne s _ hother]
      exact (hs other).mono (Nat.le_succ _)

end Store

namespace Template

theorem request_keeps (t : Template) : t.request.Keeps :=
  fun _ hs => hs

theorem store_keeps (t : Template) (content : Option Bytes) (filename contentType metadata : Value) :
    (t.store content filename contentType metadata).Keeps := by
  unfold store
  cases content with
  | none => exact StoreM.keeps_throw _
  | some content =>
    refine (StoreM.keeps_liftM _).bind fun es => ?_
    refine t.request_keeps.bind fun _ => ?_
    exact StoreM.Keeps.bind (Store.upload_keeps _ _ _ _ _) fun id => StoreM.keeps_pure _

theorem find_keeps (t : Template) (q : Option Query) : (t.find q).Keeps := by
  intro s hs
  rw [find_run]
  cases lookupFor q with
  | error e => exact hs
  | ok l => exact hs

theorem findOne_keeps (t : Template) (q : Option Query) : (t.findOne q).Keeps :=
  (t.find_keeps q).bind fun _ => StoreM.keeps_pure _

theorem delete_keeps (t : Template) (q : Option Query) : (t.delete q).Keeps := by
  intro s hs
  have hfound := t.find_keeps q (s.asked t.bucketName) hs
  rw [delete_run]
  rcases hrun : (t.find q).run (s.asked t.bucketName) with ⟨answer, s'⟩
  rw [hrun] at hfound
  cases answer with
  | error e => exact hfound
  | ok cursor => exact hfound.setBucket (Bucket.deleteAll_sound (hfound _) _) _

theorem openStream_keeps (t : Template) (name : String) : (t.openStream name).Keeps := by
  intro s hs
  rw [openStream_run]
  exact hs.setBucket (Bucket.openByName_sound (hs _) _) _

theorem resource_keeps (t : Template) (location : String) : (t.resource location).Keeps := by
  rw [resource, resourceTelling]
  refine (t.findOne_keeps _).bind fun found => ?_
  obtain ⟨cursor, file⟩ := found
  cases file with
  | none => exact StoreM.keeps_pure _
  | some f =>
    refine t.request_keeps.bind fun _ => ?_
    exact (t.openStream_keeps _).bind fun _ => StoreM.keeps_pure _

/-- Opening resources one after another keeps what every opening keeps. -/
theorem openEach_keeps {σ : Type} {P : σ → Prop}
    {openNext : StoredFile → σ → Except Failure ByteStream × σ}
    (hopen : ∀ f s, P s → P (openNext f s).2) (opened : List Resource) (files : List StoredFile)
    (s : σ) (hs : P s) : P (openEach openNext opened files s).2 := by
  induction files generalizing opened s with
  | nil => exact hs
  | cons f files ih =>
    have hnext := hopen f s hs
    rw [openEach]
    rcases hrun : openNext f s with ⟨answer, s'⟩
    rw [hrun] at hnext
    cases answer with
    | ok stream => exact ih _ s' hnext
    | error e => exact hnext

theorem resources_sound (t : Template) (pattern : Option String) {s : Store} (hs : s.Sound) :
    ((t.resources pattern).run s).2.Sound := by
  by_cases hnone : ∀ path ∈ pattern, Text.isBlankText path = true
  · rw [t.resources_run_blank hnone]
    exact hs
  · obtain ⟨path, hpath, hblank⟩ : ∃ path, pattern = some path ∧ Text.isBlankText path = false := by
      simpa using hnone
    subst hpath
    cases hwild : (Glob.withSeparator path none).hasWildcard with
    | false =>
      have hkept := t.resource_keeps path s hs
      rw [t.resources_run_name hblank hwild]
      rcases hrun : (t.resource path).run s with ⟨answer, s'⟩
      rw [hrun] at hkept
      cases answer <;> exact hkept
    | true =>
      let q := byExpression (Glob.withSeparator path none).expression
      have hkept := t.find_keeps (some q) (s.asked t.bucketName) hs
      rw [t.resources_run_pattern hblank hwild]
      rcases hrun : (t.find (some q)).run (s.asked t.bucketName) with ⟨answer, s'⟩
      rw [hrun] at hkept
      cases answer with
      | error e => exact hkept
      | ok cursor => exact openEach_keeps (fun f s hs => t.openStream_keeps f.filename s hs) _ _ _ hkept

end Template

/-- **Every store that can be reached is sound.** -/
theorem Store.Reachable.sound {s : Store} (h : s.Reachable) : s.Sound := by
  induction h with
  | start engine => exact Store.sound_empty
  | @step s _ a hs =>
    cases a with
    | upload bucket filename content chunkSize metadata => exact Store.upload_keeps _ _ _ _ _ s hs
    | store t content filename contentType metadata => exact t.store_keeps _ _ _ _ s hs
    | find t q => exact t.find_keeps q s hs
    | delete t q => exact t.delete_keeps q s hs
    | resource t location => exact t.resource_keeps location s hs
    | resources t pattern => exact t.resources_sound pattern hs

end FileDepot
