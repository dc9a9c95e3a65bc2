import FileDepot.Proofs.Store.Lookups

/-!
# Names and patterns resolved

A resource pairs the record of a file with a stream. The record comes from a lookup and the stream from
opening the name of the file, which gives the newest file of that name. The two are of one file only where no
later file has the name.

Contents:

* `Bucket.streamOf`, `Bucket.openByName_eq` — the stream that opening a name gives;
* `Template.openEach_eq` — files opened one after another;
* `Template.resource_byName`, `Template.resources_eq` — what names and patterns resolve to;
* `Returned` — a resource that the resolution of a name or of a pattern gives;
* `Template.returned_stream` — whose record and whose bytes such a resource has.
-/

namespace FileDepot

namespace Bucket

/-- A stream of the newest file of a name. -/
def streamOf (b : Bucket) (name : String) : ByteStream :=
  { remaining := ((b.newest? name).map StoredFile.content).getD [] }

/-- There is a newest file of every name that a file has. -/
theorem newest?_of_mem {b : Bucket} {f : StoredFile} (hf : f ∈ b.files) :
    ∃ newest ∈ b.files, b.newest? f.filename = some newest ∧ newest.filename = f.filename := by
  have hne : (b.files.filter fun g => g.filename == f.filename) ≠ [] :=
    List.ne_nil_of_mem (List.mem_filter.mpr ⟨hf, by simp⟩)
  have hmem := List.getLast_mem hne
  obtain ⟨hfile, hname⟩ := List.mem_filter.mp hmem
  exact ⟨_, hfile, List.getLast?_eq_some_getLast hne, by simpa using hname⟩

/-- Opening the name of a file gives a stream of the newest file of that name. -/
theorem openByName_eq {b : Bucket} (hopen : b.openLimit = none) {f : StoredFile} (hf : f ∈ b.files) :
    b.openByName f.filename =
      ({ b with opened := b.opened + 1 }, .ok (b.streamOf f.filename)) := by
  obtain ⟨newest, -, hnewest, -⟩ := newest?_of_mem hf
  rw [openByName, hopen, streamOf, hnewest]
  simp

end Bucket

/-- The resource reads the bytes of the file that has its identifier. -/
def Bucket.ReadsOwn (b : Bucket) (r : Resource) : Prop :=
  ∃ f ∈ b.files, r.file.id = .objectId f.id ∧ (r.read .null).2 = .ok f.content

namespace Store

/-- The bucket opens files, and its files are these. -/
structure Opens (s : Store) (name : String) (files : List StoredFile) : Prop where
  files : (s.bucket name).files = files
  limit : (s.bucket name).openLimit = none

theorem Opens.streamOf_eq {s : Store} {name : String} {b : Bucket} (h : s.Opens name b.files)
    (filename : String) : (s.bucket name).streamOf filename = b.streamOf filename := by
  rw [Bucket.streamOf, Bucket.streamOf, Bucket.newest?, Bucket.newest?, h.files]

/-- A sound store opens the files of its buckets, also when steps have left the files alone. -/
theorem SameFiles.opens {s s' : Store} (h : s.SameFiles s') (hs : s.Sound) {name : String} :
    s'.Opens name (s.bucket name).files where
  files := by rw [h.buckets]
  limit := by
    rw [h.buckets]
    exact (hs name).openLimit

end Store

namespace Template

/-- Opening a file of a bucket gives its stream and keeps the files. -/
theorem openStream_eq (t : Template) {s : Store} {b : Bucket} (hs : s.Opens t.bucketName b.files)
    {f : StoredFile} (hf : f ∈ b.files) :
    ((t.openStream f.filename).run s).1 = .ok (b.streamOf f.filename) ∧
      ((t.openStream f.filename).run s).2.Opens t.bucketName b.files := by
  have hopen := Bucket.openByName_eq hs.limit (hs.files ▸ hf)
  rw [openStream_run, hopen]
  refine ⟨congrArg Except.ok (hs.streamOf_eq f.filename), ?_, ?_⟩
  · rw [Store.bucket_setBucket]
    exact hs.files
  · rw [Store.bucket_setBucket]
    exact hs.limit

/-- Files opened one after another, each of which can be opened whatever was opened before. -/
theorem openEach_eq {σ : Type} {P : σ → Prop}
    {openNext : StoredFile → σ → Except Failure ByteStream × σ} {stream : StoredFile → ByteStream}
    {files : List StoredFile}
    (hopen : ∀ f ∈ files, ∀ s, P s → (openNext f s).1 = .ok (stream f) ∧ P (openNext f s).2)
    (opened : List Resource) {s : σ} (hs : P s) :
    (openEach openNext opened files s).1 =
        { resources := opened ++ files.map fun f => { file := f.record, stream := stream f } } ∧
      P (openEach openNext opened files s).2 := by
  induction files generalizing opened s with
  | nil => simpa [openEach] using hs
  | cons f files ih =>
    obtain ⟨hf, hfiles⟩ := List.forall_mem_cons.mp hopen
    obtain ⟨hanswer, hnext⟩ := hf s hs
    rw [openEach]
    rcases hrun : openNext f s with ⟨answer, s'⟩
    rw [hrun] at hanswer hnext
    obtain rfl : answer = .ok (stream f) := hanswer
    have hrest := ih hfiles (opened ++ [{ file := f.record, stream := stream f }]) hnext
    simpa using hrest

/-! ## Resolution -/

/-- A name resolves to its first file, with a stream of its newest one. -/
theorem resource_byName (t : Template) (name : String) {s : Store} (hs : s.Sound) :
    ((t.resource name).run s).1 =
      .ok (((s.bucket t.bucketName).named name).head?.map fun f =>
        { file := f.record, stream := (s.bucket t.bucketName).streamOf name }) := by
  have hfind := t.find_byName name s
  have hstore := t.find_store (some (byName name)) s
  rw [resource_run, findOne_run]
  rcases hrun : (t.find (some (byName name))).run s with ⟨answer, s'⟩
  rw [hrun] at hfind hstore
  obtain rfl : answer = .ok _ := hfind
  simp only
  cases hhead : ((s.bucket t.bucketName).named name).head? with
  | none => rfl
  | some f =>
    obtain ⟨hf, hname⟩ := List.mem_filter.mp (List.mem_of_head? hhead)
    obtain rfl : f.filename = name := by simpa using hname
    have hsame : s.SameFiles (s'.asked t.bucketName) := ⟨hstore.buckets, hstore.uploads, hstore.engine⟩
    obtain ⟨hstream, -⟩ := t.openStream_eq (hsame.opens hs) hf
    rcases hopen : (t.openStream f.filename).run (s'.asked t.bucketName) with ⟨answer, s''⟩
    rw [hopen] at hstream
    obtain rfl : answer = .ok _ := hstream
    simp [hopen]

section

variable {t : Template} {s : Store} (hs : s.Sound)

include hs

/-- **A pattern resolves to the files that its expression finds**, each with a stream of the newest file of
    its name. -/
theorem resources_eq {path : String} (hblank : Text.isBlankText path = false)
    (hpattern : (Glob.withSeparator path none).hasWildcard = true) :
    ((t.resources (some path)).run s).1 =
      match ((t.find (some (byExpression (Glob.withSeparator path none).expression))).run s).1 with
      | .error e => { resources := [], failure := some e }
      | .ok cursor => { resources := cursor.files.map fun f =>
          { file := f.record, stream := (s.bucket t.bucketName).streamOf f.filename } } := by
  generalize hq : byExpression (Glob.withSeparator path none).expression = q
  obtain ⟨s', hsame, hrun⟩ := t.find_asked (some q) s
  rw [t.resources_run_pattern hblank hpattern, hq, hrun]
  cases hfind : ((t.find (some q)).run s).1 with
  | error e => rfl
  | ok cursor =>
    have hlisted := (Bucket.lookup_subperm (find_eq_ok hfind).2).subset
    -- the files stay openable while they are opened one after another
    have heach : ∀ f ∈ cursor.files, ∀ s', s'.Opens t.bucketName (s.bucket t.bucketName).files →
        ((t.openStream f.filename).run s').1 = .ok ((s.bucket t.bucketName).streamOf f.filename) ∧
          ((t.openStream f.filename).run s').2.Opens t.bucketName (s.bucket t.bucketName).files :=
      fun f hf s' hs' => t.openStream_eq hs' (hlisted hf)
    exact (openEach_eq heach [] (hsame.opens hs)).1

end

/-! ## Records and streams -/

/-- The resource is given for a name or, among others, for a pattern. -/
def Returned (t : Template) (s : Store) (r : Resource) : Prop :=
  (∃ location, ((t.resource location).run s).1 = .ok (some r)) ∨
    ∃ pattern, r ∈ ((t.resources pattern).run s).1.resources

/-- The resource has the record of a listed file and a stream of the newest file of its name. -/
theorem Returned.listed {t : Template} {s : Store} (hs : s.Sound) {r : Resource} (h : Returned t s r) :
    ∃ f ∈ (s.bucket t.bucketName).files,
      r = { file := f.record, stream := (s.bucket t.bucketName).streamOf f.filename } := by
  have named {location : String} (h : ((t.resource location).run s).1 = .ok (some r)) :
      ∃ f ∈ (s.bucket t.bucketName).files,
        r = { file := f.record, stream := (s.bucket t.bucketName).streamOf f.filename } := by
    rw [t.resource_byName location hs, Except.ok.injEq, Option.map_eq_some_iff] at h
    obtain ⟨f, hhead, rfl⟩ := h
    obtain ⟨hf, hname⟩ := List.mem_filter.mp (List.mem_of_head? hhead)
    obtain rfl : f.filename = location := by simpa using hname
    exact ⟨f, hf, rfl⟩
  rcases h with ⟨location, h⟩ | ⟨pattern, h⟩
  · exact named h
  by_cases hnone : ∀ path ∈ pattern, Text.isBlankText path = true
  · rw [t.resources_run_blank hnone] at h
    simp at h
  obtain ⟨path, hpath, hblank⟩ : ∃ path, pattern = some path ∧ Text.isBlankText path = false := by
    simpa using hnone
  subst hpath
  cases hwild : (Glob.withSeparator path none).hasWildcard with
  | false =>
    rw [t.resources_run_name hblank hwild] at h
    rcases hrun : (t.resource path).run s with ⟨answer, s'⟩
    rw [hrun] at h
    cases answer with
    | error e => simp at h
    | ok found =>
      have hfound : found = some r := by simpa using h
      have hanswer : ((t.resource path).run s).1 = .ok (some r) := by rw [hrun, hfound]
      exact named hanswer
  | true =>
    rw [resources_eq hs hblank hwild] at h
    cases hfind : ((t.find (some (byExpression (Glob.withSeparator path none).expression))).run s).1 with
    | error e => simp [hfind] at h
    | ok cursor =>
      have hlisted := (Bucket.lookup_subperm (find_eq_ok hfind).2).subset
      simp only [hfind, List.mem_map] at h
      obtain ⟨f, hf, rfl⟩ := h
      exact ⟨f, hlisted hf, rfl⟩

/-- **A resource has the record of one file and the bytes of the newest file of its name.** So it reads the
    bytes of its own file exactly if the newest file of that name has the same bytes. -/
theorem returned_stream {s : Store} (hs : s.Reachable) {t : Template} {r : Resource}
    (h : Returned t s r) :
    ∃ f ∈ (s.bucket t.bucketName).files, ∃ newest ∈ (s.bucket t.bucketName).files,
      r.file = f.record ∧ (s.bucket t.bucketName).newest? f.filename = some newest ∧
      (r.read .null).2 = .ok newest.content ∧
      ((s.bucket t.bucketName).ReadsOwn r ↔ newest.content = f.content) := by
  obtain ⟨f, hf, rfl⟩ := h.listed hs.sound
  obtain ⟨newest, hmem, hnewest, -⟩ := Bucket.newest?_of_mem hf
  have hread : ((Resource.mk f.record ((s.bucket t.bucketName).streamOf f.filename) false).read .null).2 =
      .ok newest.content := by
    simp [Resource.read, ByteStream.read, ByteStream.count?, Bucket.streamOf, hnewest]
  refine ⟨f, hf, newest, hmem, rfl, hnewest, hread, ?_⟩
  rw [Bucket.ReadsOwn, hread]
  constructor
  · rintro ⟨g, hg, hid, hcontent⟩
    have hsame : f = g := (hs.sound t.bucketName).distinct.eq_of_id_eq hf hg (Value.objectId.inj hid)
    rw [Except.ok.inj hcontent, hsame]
  · intro hcontent
    exact ⟨f, hf, rfl, congrArg Except.ok hcontent⟩

/-- Of two files of one name the older one's record comes with the newer one's bytes. -/
theorem returned_newer_bytes :
    let uploads : List Store.Action := [.upload "fs" (.text "a") [49] none .null,
      .upload "fs" (.text "a") [50, 50] none .null]
    let s := uploads.foldl Store.Action.after {}
    let t : Template := {}
    ∃ r, Returned t s r ∧ r.file.length = 1 ∧ (r.read .null).2 = .ok [50, 50] ∧
      ¬ (s.bucket "fs").ReadsOwn r := by
  intro uploads s t
  have hanswer : ((t.resource "a").run s).1.map
      (fun r => r.map fun r => (r.file.length, (r.read .null).2)) = .ok (some (1, .ok [50, 50])) := by
    decide +kernel
  rcases hrun : ((t.resource "a").run s).1 with e | _ | r
  · simp [hrun, Except.map] at hanswer
  · simp [hrun, Except.map] at hanswer
  · rw [hrun] at hanswer
    obtain ⟨hlength, hread⟩ := Prod.mk.inj (Option.some.inj (Except.ok.inj hanswer))
    have hreturned : Returned t s r := Or.inl ⟨"a", hrun⟩
    obtain ⟨f, -, newest, -, hrecord, -, hnewest, hown⟩ :=
      returned_stream (Store.Reachable.empty.run uploads) hreturned
    refine ⟨r, hreturned, hlength, hread, fun h => ?_⟩
    -- the file of the record is shorter than what is read
    have hshort : f.content.length = 1 := by
      rw [hrecord] at hlength
      exact Int.ofNat_inj.mp hlength
    have hlong : newest.content = [50, 50] := Except.ok.inj (hnewest.symm.trans hread)
    rw [← hown.mp h, hlong] at hshort
    simp at hshort

end Template

end FileDepot
