import FileDepot.Proofs.Store.Removal
import FileDepot.Proofs.Value.Entries

/-!
# Lookups by fields of files

A filter of one field looks at this field of the document of a file.

Contents:

* `Filter.accepts_field`, `Filter.conditionAccepts_operator` — a filter of one field, a condition of one operator;
* `StoredFile.document_filename`, `StoredFile.document_id` — fields of a file's document;
* `Template.find_of_accepts` — what a query finds that neither sorts nor pages;
* `Template.find_byName` — the lookup of a name.
-/

namespace FileDepot

namespace Filter

/-- A filter of one field, the key of which joins no filters, tests this field. -/
theorem accepts_field (engine : Engine) (record : Value) {name : String} (condition : Value) (hor : name ≠ "$or")
    (hand : name ≠ "$and") :
    accepts engine record [(.text name, condition)] =
      conditionAccepts engine (record.at (pathKeys name)) condition := by
  simp only [accepts, Value.text?, fieldOf]
  have hor' : (some name == some "$or") = false := by simpa using hor
  have hand' : (some name == some "$and") = false := by simpa using hand
  simp only [hor', hand']
  show (conditionAccepts engine _ condition >>= fun answer => if answer then .ok true else .ok false) = _
  cases conditionAccepts engine (record.at (pathKeys name)) condition with
  | error e => rfl
  | ok answer => cases answer <;> rfl

/-- A condition of one operator, pattern options apart, is this operator's. -/
theorem conditionAccepts_operator (engine : Engine) (value operand : Value) {name : String}
    (hdollar : name.toList.head? = some '$') (hoptions : name ≠ "$options") :
    conditionAccepts engine value (.document [(.text name, operand)]) =
      operatorAccepts engine (.text "") value name operand := by
  have hoperators : isOperatorDocument [(.text name, operand)] = .ok true := by
    simp [isOperatorDocument, isOperatorDocument.startWithDollar, Value.text?, hdollar]
  have hnone : Entries.get? "$options" [(.text name, operand)] = none := by
    simp [Entries.get?, Entries.lookup?, Value.same, Value.text?, Ne.symm hoptions]
  rw [Value.document, conditionAccepts]
  simp only [hoperators, hnone]
  show (operatorAccepts engine (.text "") value name operand >>=
    fun answer => if answer then .ok true else .ok false) = _
  cases operatorAccepts engine (.text "") value name operand with
  | error e => rfl
  | ok answer => cases answer <;> rfl

end Filter

namespace StoredFile

theorem document_filename (f : StoredFile) :
    f.document.at (pathKeys "filename") = .text f.filename := by
  have hkeys : pathKeys "filename" = ["filename"] := by decide +kernel
  have hid : (Value.text "_id").same (.text "filename") = false := by decide +kernel
  have hname : (Value.text "filename").same (.text "filename") = true := by decide +kernel
  simp [hkeys, Value.at, document, Value.document, Entries.get?, Entries.lookup?, hid, hname]

theorem document_id (f : StoredFile) : f.document.at (pathKeys "_id") = .objectId f.id := by
  have hkeys : pathKeys "_id" = ["_id"] := by decide +kernel
  have hid : (Value.text "_id").same (.text "_id") = true := by decide +kernel
  simp [hkeys, Value.at, document, Value.document, Entries.get?, Entries.lookup?, hid]

end StoredFile

/-- A filter by a name accepts the files that have it. -/
theorem Filter.accepts_filename (engine : Engine) (f : StoredFile) (name : String) :
    accepts engine f.document [(.text "filename", .text name)] = .ok (f.filename == name) := by
  have hequals : (Value.text f.filename).equals (.text name) = .ok (f.filename == name) := by
    have hdisturbs : (Value.text f.filename).disturbs (.text name) = false := rfl
    rw [Value.equals, hdisturbs, Value.same_text]
    rfl
  rw [accepts_field _ _ _ (by decide) (by decide), f.document_filename]
  exact hequals

/-- The files of a name. -/
def Bucket.named (b : Bucket) (name : String) : List StoredFile :=
  b.files.filter fun f => f.filename == name

theorem Bucket.newest?_eq (b : Bucket) (name : String) : b.newest? name = (b.named name).getLast? := rfl

namespace Template

/-- A query that neither sorts nor pages is sent as its filter, if that can be written. -/
theorem lookupFor_of_writable {es filter : Entries} (hfilter : Native.filter (.document es) = .ok filter)
    (hwritable : (Value.document filter).writable = true) :
    lookupFor (some { criteria := es }) = .ok { filter := filter } := by
  have hlookup : lookupOf { criteria := es } = .ok { filter := filter } := by
    unfold lookupOf
    rw [hfilter]
    rfl
  rw [lookupFor, hlookup]
  exact told_of_writable hwritable rfl

/-- A query with a filter that cannot be written fails before anything is sent. -/
theorem find_of_not_writable (t : Template) (s : Store) {es filter : Entries}
    (hfilter : Native.filter (.document es) = .ok filter)
    (hwritable : (Value.document filter).writable = false) :
    ((t.find (some { criteria := es })).run s).1 = .error Value.longNumber := by
  have hlookup : lookupOf { criteria := es } = .ok { filter := filter } := by
    unfold lookupOf
    rw [hfilter]
    rfl
  rw [find_run, lookupFor, hlookup, Except.bind, told_of_not_writable hwritable]

/-- A query finds the files that its filter accepts, in their order, if this is sent and no more. -/
theorem find_of_accepts {t : Template} {s : Store} {q : Query} {filter : Entries} {p : StoredFile → Bool}
    (hlookup : lookupFor (some q) = .ok { filter := filter })
    (haccepts : ∀ f ∈ (s.bucket t.bucketName).files, Filter.accepts s.engine f.document filter = .ok (p f)) :
    ((t.find (some q)).run s).1 =
      .ok { lookup := { filter := filter }, files := (s.bucket t.bucketName).files.filter p } := by
  have hfiles : (s.bucket t.bucketName).lookup s.engine { filter := filter } =
      .ok ((s.bucket t.bucketName).files.filter p) := by
    rw [Bucket.lookup, Filter.select_of_accepts haccepts]
    rfl
  rw [find_run, hlookup]
  simp only [hfiles]
  rfl

/-- The lookup of a name lists the files that have it. -/
theorem find_byName (t : Template) (name : String) (s : Store) :
    ((t.find (some (byName name))).run s).1 =
      .ok { lookup := { filter := [(.text "filename", .text name)] }
            files := (s.bucket t.bucketName).named name } :=
  find_of_accepts (lookupFor_of_writable rfl rfl) fun f _ => Filter.accepts_filename s.engine f name

end Template

end FileDepot
