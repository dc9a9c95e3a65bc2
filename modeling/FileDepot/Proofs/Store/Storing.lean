import FileDepot.Proofs.Metadata.Writing
import FileDepot.Proofs.Store.History

/-!
# Uploads append one record or nothing

The metadata document of an upload is made of three sources: the content type, and a mapping or a typed object
of the caller, whose own entry for the type counts more than the content type. An upload that fails leaves
every bucket as it was; one that succeeds adds a single file, behind all others, under a new identifier.

Contents:

* `Entries.apartFrom`, `Entries.update_single` — a mapping set over a single entry;
* `Value.hasContent`, `Template.callerDocument`, `Template.metadataOf_eq` — what a metadata document is made of;
* `StoredFile.Holds` — a file that holds what an upload was given;
* `Template.store_appends` — the effect of an upload after every run.
-/

namespace FileDepot

/-! ## One key of a mapping -/

namespace Entries

/-- The key of the entry is this text. -/
def hasKey (name : String) (e : Value × Value) : Bool :=
  e.1.text? == some name

/-- The entries of the other keys. -/
def apartFrom (name : String) (es : Entries) : Entries :=
  es.filter fun e => !hasKey name e

theorem get?_eq (name : String) (es : Entries) : get? name es = (es.find? (hasKey name)).map (·.2) := by
  unfold get?
  induction es with
  | nil => rfl
  | cons e es ih =>
    obtain ⟨k, v⟩ := e
    rw [lookup?, ih, List.find?_cons, hasKey, Value.same_text]
    cases k.text? == some name <;> rfl

/-- Keys that are the same text are equal. -/
theorem same_of_hasKey {name : String} {e e' : Value × Value} (h : hasKey name e = true)
    (h' : hasKey name e' = true) : e.1.same e'.1 = true := by
  obtain ⟨k, v⟩ := e
  have hname : k.text? = some name := by simpa [hasKey] using h
  have hname' : e'.1.text? = some name := by simpa [hasKey] using h'
  cases k with
  | text s | textMember s =>
    obtain rfl := Option.some.inj hname
    simp [Value.same, hname']
  | _ => simp [Value.text?] at hname

/-- Of the entries of a mapping at most one has the key. -/
theorem not_hasKey_of_distinct {name : String} {es : Entries} {e : Value × Value} (h : Distinct (es ++ [e]))
    (he : hasKey name e = true) : ∀ e' ∈ es, hasKey name e' = false := by
  intro e' he'
  have hdiffers := (distinct_concat.mp h).2 e' he'
  by_contra hkey
  rw [same_of_hasKey (by simpa using hkey) he] at hdiffers
  simp at hdiffers

theorem apartFrom_eq_self {name : String} {es : Entries} (h : ∀ e ∈ es, hasKey name e = false) :
    apartFrom name es = es :=
  List.filter_eq_self.mpr fun e he => by simp [h e he]

/-- **A mapping set over a single entry.** Its own value of the key counts; its other entries follow. -/
theorem update_single (name : String) (v : Value) {es : Entries} (h : Distinct es) :
    update [(.text name, v)] es = (.text name, (get? name es).getD v) :: apartFrom name es := by
  induction es using List.reverseRecOn with
  | nil => rfl
  | append_singleton es e ih =>
    obtain ⟨hes, hnew⟩ := distinct_concat.mp h
    have hput : update [(.text name, v)] (es ++ [e]) = put e.1 e.2 (update [(.text name, v)] es) := by
      simp [update]
    rw [hput, ih hes, put]
    have hsame : (Value.text name).same e.1 = hasKey name e := by
      rw [Value.same, hasKey]
    rw [hsame]
    cases hkey : hasKey name e with
    | true =>
      have hnone := not_hasKey_of_distinct h hkey
      have hfind : (es ++ [e]).find? (hasKey name) = some e := by
        rw [List.find?_append, List.find?_eq_none.mpr fun e he => by simp [hnone e he]]
        simp [hkey]
      simp [get?_eq, hfind, apartFrom, List.filter_append, hkey]
    | false =>
      have hfind : (es ++ [e]).find? (hasKey name) = es.find? (hasKey name) := by
        simp [List.find?_append, hkey]
      have hrest : put e.1 e.2 (apartFrom name es) = apartFrom name es ++ [e] :=
        put_of_new fun e' he' => hnew e' (List.mem_of_mem_filter he')
      have hafter : apartFrom name (es ++ [e]) = apartFrom name es ++ [e] := by
        simp [apartFrom, List.filter_append, hkey]
      rw [get?_eq, get?_eq, hfind, hafter, hrest]
      rfl

theorem distinct_update {es es' : Entries} (h : Distinct es) : Distinct (update es es') := by
  induction es' generalizing es with
  | nil => exact h
  | cons e es' ih => exact ih (distinct_put h e.1 e.2)

end Entries

/-! ## Metadata documents -/

/-- The value is a text, or made of bytes, with something that is not blank. -/
def Value.hasContent : Value → Bool
  | .text s | .textMember s => Text.hasContent s.toList
  | .bytes bs | .binary bs _ | .foreign (.buffer _ bs) => bs.any fun b => !Text.isBlankByte b
  | _ => false

namespace Template

/-- A content type that is accepted counts if something in it is not blank. -/
theorem givesContentType_eq_ok {v : Value} {gives : Bool} (h : givesContentType v = .ok gives) :
    gives = v.hasContent := by
  unfold givesContentType at h
  cases htruthy : v.truthy with
  | false =>
    simp only [htruthy, Bool.not_false, if_true, Except.ok.injEq] at h
    subst h
    cases v with
    | text s | textMember s =>
      have hempty : s = "" := by simpa [Value.truthy] using htruthy
      rw [hempty]
      rfl
    | bytes bs | binary bs k =>
      have hempty : bs = [] := by simpa [Value.truthy] using htruthy
      rw [hempty]
      rfl
    | foreign f =>
      cases f with
      | buffer name bs =>
        have hempty : bs = [] := by simpa [Value.truthy] using htruthy
        rw [hempty]
        rfl
      | _ => rfl
    | _ => rfl
  | true =>
    simp only [htruthy, Bool.not_true, Bool.false_eq_true, if_false] at h
    cases v with
    | text s | textMember s | bytes bs | binary bs k => exact (Except.ok.inj h).symm
    | foreign f =>
      cases f with
      | buffer name bs =>
        simp only at h
        split at h
        · exact (Except.ok.inj h).symm
        · cases h
      | _ => cases h
    | _ => cases h

/-- The document of a caller's metadata: a mapping itself, and a typed object as it is written. -/
def callerDocument (t : Template) : Value → Except Failure Entries
  | .null => .ok []
  | .map _ es => .ok es
  | v => (t.writer.write v).map fun d => d.entriesOf?.getD []

/-- The entries that a content type puts in front. -/
def typeEntries (contentType : Value) : Entries :=
  if contentType.hasContent then [(.text contentTypeKey, contentType)] else []

/-- The metadata document of an upload is the caller's document set over the content type. -/
theorem metadataOf_eq (t : Template) (contentType metadata : Value) :
    t.metadataOf contentType metadata = (do
      let _ ← givesContentType contentType
      let document ← t.callerDocument metadata
      .ok ((typeEntries contentType).update document)) := by
  rw [metadataOf]
  cases hgives : givesContentType contentType with
  | error e => rfl
  | ok gives =>
    obtain rfl := givesContentType_eq_ok hgives
    cases metadata with
    | null | map kind es => rfl
    | _ =>
      simp only [callerDocument]
      cases hwrite : t.writer.write _ with
      | error e => rfl
      | ok d =>
        obtain ⟨es, rfl, -⟩ := MetadataWriter.write_mapping hwrite
        rfl

theorem distinct_callerDocument {t : Template} {metadata : Value} {document : Entries}
    (hmapping : ∀ es, metadata.entriesOf? = some es → es.Distinct)
    (h : t.callerDocument metadata = .ok document) : document.Distinct := by
  cases metadata with
  | null =>
    obtain rfl := Except.ok.inj h
    exact .nil
  | map kind es =>
    obtain rfl := Except.ok.inj h
    exact hmapping es rfl
  | _ =>
    simp only [callerDocument] at h
    obtain ⟨d, hwrite, rfl⟩ := map_eq_ok.mp h
    obtain ⟨es, rfl, hes⟩ := MetadataWriter.write_mapping hwrite
    exact hes

/-- A metadata document made of a content type and a caller's document. -/
structure MadeOf (es : Entries) (contentType : Value) (document : Entries) : Prop where
  distinct : es.Distinct
  type : Entries.get? contentTypeKey es =
    (Entries.get? contentTypeKey document).or (if contentType.hasContent then some contentType else none)
  others : es.apartFrom contentTypeKey = document.apartFrom contentTypeKey

/-- **The caller's type counts more than the content type**, and its other entries are all that there are. -/
theorem madeOf_update (contentType : Value) {document : Entries} (h : document.Distinct) :
    MadeOf ((typeEntries contentType).update document) contentType document := by
  cases hcontent : contentType.hasContent with
  | false =>
    have hself : (typeEntries contentType).update document = document := by
      rw [typeEntries, hcontent]
      exact Entries.ofPairs_eq_self h
    rw [hself]
    exact ⟨h, by simp [hcontent], rfl⟩
  | true =>
    have hset : (typeEntries contentType).update document =
        (.text contentTypeKey, (Entries.get? contentTypeKey document).getD contentType) ::
          document.apartFrom contentTypeKey := by
      rw [typeEntries, hcontent]
      exact Entries.update_single contentTypeKey contentType h
    have hfirst (v : Value) : Entries.hasKey contentTypeKey (.text contentTypeKey, v) = true := by
      simp [Entries.hasKey, Value.text?]
    rw [hset]
    refine ⟨?_, ?_, ?_⟩
    · rw [← hset, typeEntries, hcontent]
      exact Entries.distinct_update (List.pairwise_singleton _ _)
    · rw [Entries.get?_eq, List.find?_cons_of_pos (hfirst _), hcontent]
      cases Entries.get? contentTypeKey document <;> rfl
    · rw [Entries.apartFrom, List.filter_cons_of_neg (by simp [hfirst])]
      exact Entries.apartFrom_eq_self fun e he => by simpa using (List.mem_filter.mp he).2

end Template

/-! ## Uploads -/

/-- The file holds what an upload through a template was given. -/
structure StoredFile.Holds (f : StoredFile) (t : Template) (content : Bytes)
    (filename contentType metadata : Value) : Prop where
  content : f.content = content
  filename : (Template.nameOf filename).text? = some f.filename
  metadata : ∃ document es, t.callerDocument metadata = .ok document ∧ f.metadata = .document es ∧
    Template.MadeOf es contentType document

namespace Template

/-- What an upload through a template needs. -/
structure CanStore (t : Template) (content : Option Bytes) (filename contentType metadata : Value) :
    Prop where
  content : content.isSome
  contentType : (givesContentType contentType).isOk
  metadata : (t.callerDocument metadata).isOk
  filename : (nameOf filename).text?.isSome

section

variable {t : Template} {content : Option Bytes} {filename contentType metadata : Value} {s : Store}

/-- What an upload needs, as the parts of which the added file is made. -/
theorem canStore_iff :
    t.CanStore content filename contentType metadata ↔
      ∃ bytes es name, content = some bytes ∧ t.metadataOf contentType metadata = .ok es ∧
        (nameOf filename).text? = some name := by
  have hmetadata : (∃ es, t.metadataOf contentType metadata = .ok es) ↔
      (givesContentType contentType).isOk ∧ (t.callerDocument metadata).isOk := by
    rw [metadataOf_eq]
    cases givesContentType contentType with
    | error e => simp [bind, Except.bind, Except.isOk, Except.toBool]
    | ok gives =>
      cases t.callerDocument metadata with
      | error e => simp [bind, Except.bind, Except.isOk, Except.toBool]
      | ok document => simp [bind, Except.bind, Except.isOk, Except.toBool]
  constructor
  · rintro ⟨hcontent, htype, hdocument, hname⟩
    obtain ⟨bytes, hbytes⟩ := Option.isSome_iff_exists.mp hcontent
    obtain ⟨name, hname⟩ := Option.isSome_iff_exists.mp hname
    obtain ⟨es, hes⟩ := hmetadata.mpr ⟨htype, hdocument⟩
    exact ⟨bytes, es, name, hbytes, hes, hname⟩
  · rintro ⟨bytes, es, name, hbytes, hes, hname⟩
    obtain ⟨htype, hdocument⟩ := hmetadata.mp ⟨es, hes⟩
    exact ⟨by simp [hbytes], htype, hdocument, by simp [hname]⟩

/-- An upload succeeds exactly if it is given what it needs. -/
theorem store_ok_iff :
    (∃ u, ((t.store content filename contentType metadata).run s).1 = .ok u) ↔
      t.CanStore content filename contentType metadata := by
  rw [canStore_iff, store_run]
  cases content with
  | none => simp
  | some bytes =>
    cases t.metadataOf contentType metadata with
    | error e => simp
    | ok es => cases (nameOf filename).text? <;> simp

/-- An upload that fails changes no bucket. -/
theorem store_error {e : Failure} (h : ((t.store content filename contentType metadata).run s).1 = .error e) :
    s.SameFiles ((t.store content filename contentType metadata).run s).2 := by
  rw [store_run] at h ⊢
  cases content with
  | none => exact ⟨fun _ => rfl, rfl, rfl⟩
  | some bytes =>
    cases hes : t.metadataOf contentType metadata with
    | error e => exact ⟨fun _ => rfl, rfl, rfl⟩
    | ok es =>
      cases hname : (nameOf filename).text? with
      | none => exact ⟨fun _ => rfl, rfl, rfl⟩
      | some name => simp [hes, hname] at h

/-- An upload that succeeds adds one file with the identifier that it gives. -/
theorem store_ok {u : Upload} (hmapping : ∀ es, metadata.entriesOf? = some es → es.Distinct)
    (h : ((t.store content filename contentType metadata).run s).1 = .ok u) :
    ∃ bytes f, content = some bytes ∧ f.id = u.id ∧ f.Holds t bytes filename contentType metadata ∧
      s.Gains t.bucketName f ((t.store content filename contentType metadata).run s).2 := by
  rw [store_run] at h ⊢
  cases content with
  | none => simp at h
  | some bytes =>
    cases hes : t.metadataOf contentType metadata with
    | error e => simp [hes] at h
    | ok es =>
      cases hname : (nameOf filename).text? with
      | none => simp [hes, hname] at h
      | some name =>
        simp only [hes, hname, Except.ok.injEq] at h
        subst h
        rw [metadataOf_eq] at hes
        obtain ⟨gives, -, hes⟩ := bind_eq_ok.mp hes
        obtain ⟨document, hdocument, hes⟩ := bind_eq_ok.mp hes
        obtain rfl := Except.ok.inj hes
        have hmade := madeOf_update contentType (distinct_callerDocument hmapping hdocument)
        let f := s.nextFile name bytes t.namedChunkSize (.document ((typeEntries contentType).update document))
        have hgains : (s.asked t.bucketName).Gains t.bucketName f _ := Store.gains_withFile _ _ rfl
        exact ⟨bytes, f, rfl, rfl, ⟨rfl, hname, document, _, hdocument, rfl, hmade⟩, hgains.of_asked⟩

end

/-- **An upload appends one record or nothing.** After every run, whatever answers for patterns that are not read, an
    upload succeeds exactly if there is content,
    the content type and the metadata are accepted and the name is a text. If it fails, every bucket is as it
    was. If it succeeds, its identifier is none that the run has given out, and the bucket has one more file,
    behind all that it had, which holds what the upload was given. -/
theorem store_appends (engine : Engine) (actions : List Store.Action) (t : Template) (content : Option Bytes)
    (filename contentType metadata : Value)
    (hmapping : ∀ es, metadata.entriesOf? = some es → es.Distinct) :
    let s := actions.foldl Store.Action.after { engine }
    let stored := (t.store content filename contentType metadata).run s
    ((∃ u, stored.1 = .ok u) ↔ t.CanStore content filename contentType metadata) ∧
    (∀ e, stored.1 = .error e → ∀ name, stored.2.bucket name = s.bucket name) ∧
    ∀ u, stored.1 = .ok u →
      (∀ r ∈ Store.receipts { engine } actions, r.id ≠ u.id) ∧
      ∃ bytes f, content = some bytes ∧ f.id = u.id ∧ f.Holds t bytes filename contentType metadata ∧
        (stored.2.bucket t.bucketName).files = (s.bucket t.bucketName).files ++ [f] ∧
        ∀ other, other ≠ t.bucketName → stored.2.bucket other = s.bucket other := by
  intro s stored
  refine ⟨store_ok_iff, fun e he name => (store_error he).buckets name, fun u hu => ?_⟩
  obtain ⟨bytes, f, hbytes, hid, hholds, hgains⟩ := store_ok hmapping hu
  have hnew : ∀ r ∈ Store.receipts { engine } actions, r.id ≠ u.id := by
    intro r hr hsame
    -- identifiers count the uploads, and this one counts one more
    have hissued := (Store.receipts_account engine actions).issued r hr
    rw [hsame, ← hid, hgains.id] at hissued
    exact Nat.not_succ_le_self _ hissued
  have hfiles : (stored.2.bucket t.bucketName).files = (s.bucket t.bucketName).files ++ [f] := by
    rw [hgains.bucket]
    rfl
  exact ⟨hnew, bytes, f, hbytes, hid, hholds, hfiles, hgains.others⟩

/-- After a deletion, a mapping with a type of its own is stored with a content type: the file comes behind the
    one that is left, under a third identifier, and keeps the type of the mapping. -/
theorem store_appends_own_type :
    let actions : List Store.Action := [.upload "fs" (.text "a") [1] none .null,
      .upload "fs" (.text "b") [2] none .null, .delete {} (some (byName "b"))]
    let metadata : Value := .document [(.text "k", .int 1), (.text "type", .text "x")]
    let s := actions.foldl Store.Action.after {}
    let answer := (({} : Template).store (some [3]) .null (.text "text/plain") metadata).run s
    ∃ u f document es, answer.1 = .ok u ∧ (∀ r ∈ Store.receipts {} actions, r.id ≠ u.id) ∧
      (s.bucket "fs").files.map (·.id.value) = [1] ∧
      (answer.2.bucket "fs").files = (s.bucket "fs").files ++ [f] ∧ f.id = u.id ∧ u.id.value = 3 ∧
      f.content = [3] ∧ f.filename = "" ∧ f.metadata = .document es ∧
      ({} : Template).callerDocument metadata = .ok document ∧ MadeOf es (.text "text/plain") document ∧
      Entries.get? contentTypeKey es = some (.text "x") := by
  intro actions metadata s answer
  have hmapping : ∀ es, metadata.entriesOf? = some es → es.Distinct := by
    intro es hes
    obtain rfl := Option.some.inj hes
    simp [Entries.Distinct, Value.same, Value.text?]
  obtain ⟨hsucceeds, -, hadds⟩ := store_appends _ actions {} (some [3]) .null (.text "text/plain") metadata hmapping
  obtain ⟨u, hu⟩ := hsucceeds.mpr ⟨rfl, by decide +kernel, rfl, rfl⟩
  obtain ⟨hnew, bytes, f, hbytes, hid, hholds, hfiles, -⟩ := hadds u hu
  obtain ⟨document, es, hdocument, hmetadata, hmade⟩ := hholds.metadata
  obtain rfl := Option.some.inj hbytes
  have hthird : answer.1.map (·.id.value) = .ok 3 := by decide +kernel
  have hleft : (s.bucket "fs").files.map (·.id.value) = [1] := by decide +kernel
  have hanswer : answer.1 = .ok u := hu
  rw [hanswer] at hthird
  have htype := hmade.type
  obtain rfl := Except.ok.inj hdocument
  exact ⟨u, f, _, es, hu, hnew, hleft, hfiles, hid, Except.ok.inj hthird, hholds.content,
    (Option.some.inj hholds.filename).symm, hmetadata, rfl, hmade, htype⟩

end Template

end FileDepot
