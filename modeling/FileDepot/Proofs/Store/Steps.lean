import FileDepot.Proofs.Steps
import FileDepot.Store.Template

/-!
# What the steps of a store do

Each operation of a template, as the answer that it gives and the store that it leaves.

Contents:

* `Store.asked` — the store when a bucket has been asked for, which changes no bucket;
* `Template.told`, `Template.told_of_writable`, `Template.told_of_not_writable` — lookups that can be told of;
* `Template.store_run`, `Template.find_run`, `Template.delete_run`, … — the operations of a template where nobody
  listens.
-/

namespace FileDepot

namespace Store

/-- The store when a bucket has been asked for by name. -/
def asked (s : Store) (name : String) : Store :=
  { s with requested := s.requested ++ [name] }

@[simp] theorem bucket_asked (s : Store) (name other : String) :
    (s.asked name).bucket other = s.bucket other := rfl

@[simp] theorem engine_asked (s : Store) (name : String) : (s.asked name).engine = s.engine := rfl

@[simp] theorem request_run (name : String) (s : Store) :
    (request name).run s = (.ok (s.bucket name), s.asked name) := rfl

/-- The file of the next upload. -/
def nextFile (s : Store) (filename : String) (content : Bytes) (chunkSize : Option Int)
    (metadata : Value) : StoredFile where
  id := ⟨s.uploads + 1⟩
  filename := filename
  content := content
  chunkSize := if chunkSize.getD 0 = 0 then Bucket.defaultChunkSize else chunkSize.getD 0
  uploaded := firstDay.addSeconds (s.uploads + 1)
  metadata := metadata

/-- The store with one more file in a bucket. -/
def withFile (s : Store) (name : String) (f : StoredFile) : Store :=
  { s.modifyBucket name (·.add f) with uploads := s.uploads + 1 }

@[simp] theorem bucket_withFile (s : Store) (name : String) (f : StoredFile) :
    (s.withFile name f).bucket name = (s.bucket name).add f :=
  bucket_setBucket s name _

theorem bucket_withFile_of_ne (s : Store) {name other : String} (f : StoredFile) (h : other ≠ name) :
    (s.withFile name f).bucket other = s.bucket other :=
  bucket_setBucket_of_ne s _ h

/-- An upload adds a file with an identifier of its own, if its name is a text. -/
theorem upload_run (name : String) (filename : Value) (content : Bytes) (chunkSize : Option Int)
    (metadata : Value) (s : Store) :
    (upload name filename content chunkSize metadata).run s =
      match filename.text? with
      | none => (.error .wrongKind, s)
      | some text =>
        (.ok ⟨s.uploads + 1⟩, s.withFile name (s.nextFile text content chunkSize metadata)) := by
  unfold upload
  cases filename.text? <;> rfl

end Store

namespace Template

@[simp] theorem request_run (t : Template) (s : Store) :
    t.request.run s = (.ok (s.bucket t.bucketName), s.asked t.bucketName) := rfl

/-! ## Uploads -/

/-- The name under which a file is stored: a missing one is empty. -/
def nameOf (filename : Value) : Value :=
  if filename.isNull then .text "" else filename

/-- The chunk size that an upload names. -/
def namedChunkSize (t : Template) : Option Int :=
  if t.chunkSize = some 0 then none else t.chunkSize

/-- An upload through a template adds a file once there is content, a metadata document and a name that is a
text; otherwise it fails and changes no bucket. -/
theorem store_run (t : Template) (content : Option Bytes) (filename contentType metadata : Value) (s : Store) :
    (t.store content filename contentType metadata).run s =
      match content, t.metadataOf contentType metadata, (nameOf filename).text? with
      | none, _, _ => (.error (.invalid "content must not be None"), s)
      | some _, .error e, _ => (.error e, s)
      | some _, .ok _, none => (.error .wrongKind, s.asked t.bucketName)
      | some content, .ok es, some name =>
        (.ok { id := ⟨s.uploads + 1⟩, filename := nameOf filename, chunkSize := t.namedChunkSize, metadata := es },
          (s.asked t.bucketName).withFile t.bucketName
            (s.nextFile name content t.namedChunkSize (.document es))) := by
  unfold store
  cases content with
  | none => rfl
  | some content =>
    simp only
    rw [Step.run_bind, Step.run_liftM]
    cases t.metadataOf contentType metadata with
    | error e => rfl
    | ok es =>
      simp only
      rw [Step.run_bind, request_run]
      simp only
      rw [Step.run_bind, Store.upload_run]
      have named : (if filename.isNull = true then Value.text "" else filename) = nameOf filename := rfl
      rw [named]
      cases (nameOf filename).text? <;> rfl

/-! ## Lookups -/

/-- A step on the store is itself among steps on the store. -/
@[simp] theorem onStore_self {α : Type} (step : StoreM α) : (onStore step : StoreM α) = step :=
  rfl

/-- A lookup that can be told of. -/
def told (l : Lookup) : Except Failure Lookup :=
  (announcement l).map fun _ => l

theorem told_of_writable {l : Lookup} (hfilter : (Value.document l.filter).writable = true)
    (hsort : (Value.list (l.sort.map fun (key, direction) => .tuple [key, .int direction])).writable = true) :
    told l = .ok l := by
  have hfilter' : (Value.document l.filter).printed = .ok (Value.document l.filter).shown := if_pos hfilter
  have hsort' (v : Value) (hv : v.writable = true) (hlist : ∃ vs, v = .list vs) : v.printed = .ok v.shown := by
    obtain ⟨vs, rfl⟩ := hlist
    exact if_pos hv
  rw [told, announcement, hfilter', hsort' _ hsort ⟨_, rfl⟩]
  rfl

theorem told_of_not_writable {l : Lookup} (hfilter : (Value.document l.filter).writable = false) :
    told l = .error Value.longNumber := by
  have hprinted : (Value.document l.filter).printed = .error Value.longNumber :=
    if_neg fun hshown => Bool.false_ne_true (hfilter.symm.trans hshown)
  rw [told, announcement, hprinted]
  rfl

/-- What is asked of a bucket for a query, and without one. -/
def lookupFor : Option Query → Except Failure Lookup
  | none => .ok {}
  | some q => (lookupOf q).bind told

theorem search_run (t : Template) (l : Lookup) (s : Store) :
    (t.search l).run s =
      (((s.bucket t.bucketName).lookup s.engine l).map fun files => { lookup := l, files := files },
        s.asked t.bucketName) := by
  rw [search, Step.run_bind, request_run]
  simp only
  rw [Step.run_bind, Step.run_get]
  simp only
  rw [Step.run_bind, Step.run_liftM]
  rw [Store.engine_asked]
  cases (s.bucket t.bucketName).lookup s.engine l <;> rfl

/-- A lookup asks for the bucket unless its query cannot be sent, and changes no bucket. -/
theorem find_run (t : Template) (q : Option Query) (s : Store) :
    (t.find q).run s =
      match lookupFor q with
      | .error e => (.error e, s)
      | .ok l =>
        (((s.bucket t.bucketName).lookup s.engine l).map fun files => { lookup := l, files := files },
          s.asked t.bucketName) := by
  cases q with
  | none => exact t.search_run {} s
  | some q =>
    rw [find, findTelling, lookupFor]
    simp only [onStore_self]
    rw [Step.run_bind, Step.run_liftM]
    cases lookupOf q with
    | error e => rfl
    | ok l =>
      simp only [Except.bind, told]
      rw [Step.run_bind, Step.run_liftM]
      cases announcement l with
      | error e => rfl
      | ok text =>
        have hunheard (m : LogMessage) : (unheard m).run s = (.ok (), s) := rfl
        simp only
        rw [Step.run_bind, hunheard]
        exact t.search_run l s

theorem findOne_run (t : Template) (q : Option Query) (s : Store) :
    (t.findOne q).run s =
      match (t.find q).run s with
      | (.ok cursor, s) => (.ok ({ cursor with closed := true }, cursor.files.head?), s)
      | (.error e, s) => (.error e, s) := by
  rw [findOne, findOneTelling, Step.run_bind, find]
  rcases (t.findTelling unheard q).run s with ⟨answer, s'⟩
  cases answer <;> rfl

/-! ## Deletions -/

theorem deleteListed_run (t : Template) (cursor : Cursor) (s : Store) :
    (t.deleteListed cursor).run s =
      let (b, answer) := (s.bucket t.bucketName).deleteAll (cursor.files.map (·.id))
      (answer, s.setBucket t.bucketName b) := by
  rw [deleteListed, Step.run_bind, Step.run_get]
  simp only
  rw [Step.run_bind, Step.run_set]
  exact Step.run_liftM _ _

/-- A deletion looks the files up and deletes them one by one. -/
theorem delete_run (t : Template) (q : Option Query) (s : Store) :
    (t.delete q).run s =
      match (t.find q).run (s.asked t.bucketName) with
      | (.error e, s) => (.error e, s)
      | (.ok cursor, s) =>
        let (b, answer) := (s.bucket t.bucketName).deleteAll (cursor.files.map (·.id))
        (answer.map fun _ => cursor.files.length, s.setBucket t.bucketName b) := by
  rw [delete, deleteTelling]
  simp only [onStore_self]
  rw [Step.run_bind, request_run]
  simp only
  rw [Step.run_bind, find]
  rcases (t.findTelling unheard q).run (s.asked t.bucketName) with ⟨answer, s'⟩
  cases answer with
  | error e => rfl
  | ok cursor =>
    simp only
    rw [Step.run_bind, deleteListed_run]
    generalize (s'.bucket t.bucketName).deleteAll (cursor.files.map (·.id)) = deleted
    obtain ⟨b, answer⟩ := deleted
    cases answer <;> rfl

/-! ## Resources -/

theorem openStream_run (t : Template) (name : String) (s : Store) :
    (t.openStream name).run s =
      let (b, answer) := (s.bucket t.bucketName).openByName name
      (answer, s.setBucket t.bucketName b) := by
  rw [openStream, Step.run_bind, Step.run_get]
  simp only
  rw [Step.run_bind, Step.run_set]
  exact Step.run_liftM _ _

/-- A name resolves to the first file that has it, with a stream opened by name. -/
theorem resource_run (t : Template) (location : String) (s : Store) :
    (t.resource location).run s =
      match (t.findOne (some (byName location))).run s with
      | (.error e, s) => (.error e, s)
      | (.ok (_, none), s) => (.ok none, s)
      | (.ok (_, some f), s) =>
        match (t.openStream location).run (s.asked t.bucketName) with
        | (.error e, s) => (.error e, s)
        | (.ok stream, s) => (.ok (some { file := f.record, stream := stream }), s) := by
  rw [resource, resourceTelling, Step.run_bind, findOne]
  simp only [onStore_self]
  rcases (t.findOneTelling unheard (some (byName location))).run s with ⟨answer, s'⟩
  cases answer with
  | error e => rfl
  | ok found =>
    obtain ⟨cursor, file⟩ := found
    cases file with
    | none => rfl
    | some f =>
      simp only
      rw [Step.run_bind, request_run]
      simp only
      rw [Step.run_bind]
      rcases (t.openStream location).run (s'.asked t.bucketName) with ⟨answer, s''⟩
      cases answer <;> rfl

/-- No pattern, and a blank one, finds nothing. -/
theorem resources_run_blank (t : Template) {pattern : Option String}
    (h : ∀ path ∈ pattern, Text.isBlankText path = true) (s : Store) :
    (t.resources pattern).run s = ({ resources := [] }, s) := by
  unfold resources resourcesTelling
  cases pattern with
  | none => rfl
  | some path =>
    simp only [h path rfl, if_true]
    rfl

/-- A pattern without a wildcard resolves as a name. -/
theorem resources_run_name (t : Template) {path : String} (hblank : Text.isBlankText path = false)
    (hname : (Glob.withSeparator path none).hasWildcard = false) (s : Store) :
    (t.resources (some path)).run s =
      match (t.resource path).run s with
      | (.ok found, s) => ({ resources := found.toList }, s)
      | (.error e, s) => ({ resources := [], failure := some e }, s) := by
  unfold resources resourcesTelling resource
  simp only [hblank, hname, Bool.false_eq_true, if_false, Bool.not_false, if_true, Step.run_then]
  simp only [StateT.run]
  rcases (t.resourceTelling unheard path).run s with ⟨answer, s'⟩
  cases answer <;> rfl

/-- A pattern with a wildcard resolves to the files that its expression finds, opened one by one. -/
theorem resources_run_pattern (t : Template) {path : String} (hblank : Text.isBlankText path = false)
    (hpattern : (Glob.withSeparator path none).hasWildcard = true) (s : Store) :
    (t.resources (some path)).run s =
      match (t.find (some (byExpression (Glob.withSeparator path none).expression))).run
          (s.asked t.bucketName) with
      | (.error e, s) => ({ resources := [], failure := some e }, s)
      | (.ok cursor, s) => openEach (fun f => (t.openStream f.filename).run) [] cursor.files s := by
  unfold resources resourcesTelling find
  simp only [hblank, hpattern, Bool.false_eq_true, if_false, Bool.not_true, onStore_self, Step.run_then]
  generalize byExpression (Glob.withSeparator path none).expression = q
  have hheard (m : LogMessage) : StateT.run (ExceptT.run (unheard m)) s = (.ok (), s) := rfl
  simp only [hheard, Step.run_then]
  simp only [StateT.run]
  rw [request_run]
  rcases (t.findTelling unheard (some q)).run (s.asked t.bucketName) with ⟨answer, s'⟩
  cases answer <;> rfl

end Template

end FileDepot
