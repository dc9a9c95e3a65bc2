import FileDepot.Proofs.Store.History
import FileDepot.Proofs.Value.Entries

/-!
# Reading a file by its name

Whether a name resolves is decided by a lookup, and what is read comes from opening the name, which gives the
newest file that has it. By the receipts of a run these two agree: a name resolves exactly if the file of
some receipt of that name survives, and the bytes are those of the last such receipt.

Contents:

* `Resource.read_newest` — what the resource reads;
* `Store.named`, `Template.resource_eq_none_iff`, `Template.resource_reads_last` — the same by the receipts.
-/

namespace FileDepot

/-- A resource that has been opened by a name reads the bytes of the newest file of the name. -/
theorem Resource.read_newest {b : Bucket} {name : String} {newest : StoredFile}
    (h : (b.named name).getLast? = some newest) (record : FileRecord) :
    ((Resource.mk record (b.streamOf name) false).read .null).2 = .ok newest.content := by
  rw [← Bucket.newest?_eq] at h
  simp [read, ByteStream.read, ByteStream.count?, Bucket.streamOf, h]

/-! ## By receipts -/

namespace Store

/-- The receipts of a name for a bucket whose files have not been deleted. -/
def named (s : Store) (bucket name : String) (rs : List Receipt) : List Receipt :=
  (s.surviving bucket rs).filter fun r => r.filename == name

theorem Accounts.named {s : Store} {rs : List Receipt} (h : s.Accounts rs) (bucket name : String) :
    ((s.bucket bucket).named name).map (·.receipt bucket) = s.named bucket name rs := by
  rw [Store.named, ← h.files, List.filter_map]
  rfl

end Store

namespace Template

section

variable {t : Template} {s : Store} {rs : List Receipt} (hs : s.Sound) (h : s.Accounts rs) (name : String)

include hs h

/-- A name resolves to nothing exactly if no receipt of it survives. -/
theorem resource_eq_none_iff :
    ((t.resource name).run s).1 = .ok none ↔ s.named t.bucketName name rs = [] := by
  rw [t.resource_byName name hs, ← h.named]
  simp

/-- A name of which a receipt survives resolves to a resource that reads the bytes of the last of them. -/
theorem resource_reads_last {r : Receipt} (hr : (s.named t.bucketName name rs).getLast? = some r) :
    ∃ found, ((t.resource name).run s).1 = .ok (some found) ∧
      (found.read .null).2 = .ok r.content := by
  rw [← h.named, List.getLast?_map] at hr
  obtain ⟨newest, hnewest, rfl⟩ := Option.map_eq_some_iff.mp hr
  rw [t.resource_byName name hs]
  cases hhead : ((s.bucket t.bucketName).named name).head? with
  | none =>
    rw [List.head?_eq_none_iff] at hhead
    simp [hhead] at hnewest
  | some f => exact ⟨_, rfl, Resource.read_newest hnewest f.record⟩

end

end Template

end FileDepot
