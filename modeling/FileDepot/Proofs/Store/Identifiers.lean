import FileDepot.Proofs.Store.Conjunction
import FileDepot.Proofs.Store.Lookups
import FileDepot.Proofs.Value.Identifier

/-!
# Lookups by identifier

The identifier of a file can be asked for under two names and in two forms, as itself or as its digits. In the
form that a store executes all of these are one, wherever the condition stands.

Contents:

* `Filter.Joining`, `Filter.wrapped` — a filter inside lists of one filter;
* `Native.filter_wrapped`, `Filter.accepts_wrapped` — such lists change nothing;
* `Native.fieldValue_written`, `Native.fieldValue_oneOf`, `Native.fieldValue_unequal` — the forms of a condition
  on the identifier;
* `Filter.accepts_itself`, `Filter.accepts_oneOf`, `Filter.accepts_unequal` — what such a condition accepts;
* `Template.Finds`, `Template.find_of_identifiers` — what is found.
-/

namespace FileDepot

/-! ## Filters inside lists of one filter -/

namespace Filter

/-- The operators that join the filters of a list and that a store tests. -/
inductive Joining
  | all
  | any
  deriving Repr, DecidableEq

/-- How an operator that joins filters is written. -/
def Joining.spelling : Joining → String
  | .all => "$and"
  | .any => "$or"

/-- A filter inside lists that hold nothing else, the outermost first. -/
def wrapped : List Joining → Entries → Entries
  | [], es => es
  | j :: js, es => [(.text j.spelling, .list [.document (wrapped js es)])]

/-- **A record satisfies a filter inside lists of one filter exactly if it satisfies the filter.** -/
theorem accepts_wrapped (engine : Engine) (record : Value) (js : List Joining) (es : Entries) :
    accepts engine record (wrapped js es) = accepts engine record es := by
  induction js with
  | nil => rfl
  | cons j js ih =>
    have hinner : acceptsValue engine record (.document (wrapped js es)) = accepts engine record es := by
      rw [← ih]
      rfl
    cases j with
    | all =>
      have hkey : ((Value.text Joining.all.spelling).text? == some "$or") = false := by decide
      simp only [wrapped, accepts, hkey, allAccept, allOf, hinner]
      cases accepts engine record es with
      | error e => rfl
      | ok answer => cases answer <;> rfl
    | any =>
      simp only [wrapped, accepts, anyAccepts, anyOf, hinner]
      cases accepts engine record es with
      | error e => rfl
      | ok answer => cases answer <;> rfl

/-- A filter inside lists can be told as it can be by itself. -/
theorem writable_wrapped (js : List Joining) (es : Entries) :
    (Value.document (wrapped js es)).writable = (Value.document es).writable := by
  induction js with
  | nil => rfl
  | cons j js ih =>
    rw [← ih]
    show ((Value.text j.spelling).writable && ((Value.document (wrapped js es)).writable && true) && true) = _
    rw [Bool.and_true, Bool.and_true]
    rfl

end Filter

namespace Native

open FileDepot.Filter (wrapped Joining)

theorem isLogical_spelling (j : Joining) : isLogical (.text j.spelling) = true := by
  cases j <;> decide

/-- **The form of a filter inside lists of one filter** is that of the filter, inside the same lists. -/
theorem filter_wrapped (js : List Joining) {es gs : Entries} (h : filter (.document es) = .ok gs) :
    filter (.document (wrapped js es)) = .ok (wrapped js gs) := by
  induction js with
  | nil => exact h
  | cons j js ih =>
    have hjoined : joinedFilters (.list [.document (wrapped js es)]) =
        .ok [.document (wrapped js gs)] := by
      rw [joinedFilters, filters, ih]
      rfl
    unfold wrapped
    rw [Value.document, filter, filterEntries, isLogical_spelling, if_pos rfl, hjoined]
    rfl

/-! ## Conditions on the identifier -/

/-- The names under which the identifier is asked for. -/
def IsIdName (name : String) : Prop :=
  name = "id" ∨ name = "_id"

/-- A condition on the identifier is one on the field that holds it, whatever name it has. -/
theorem filter_id {name : String} (hname : IsIdName name) {condition w : Value}
    (h : fieldValue true condition = .ok w) :
    filter (.document [(.text name, condition)]) = .ok [(.text "_id", w)] := by
  have hlogical : isLogical (.text name) = false := by
    rcases hname with rfl | rfl <;> decide
  have hid : isIdKey (.text name) = true := by
    rcases hname with rfl | rfl <;> decide
  rw [Value.document, filter, filterEntries, hlogical, hid, h, fieldName, hid]
  rfl

/-- Under the identifier an identifier becomes itself, whichever way it is written. -/
theorem convert_written {i : ObjectId} {v : Value} (h : i.Written v) : convert true v = .objectId i := by
  cases h with
  | itself => rfl
  | digits hs =>
    unfold convert
    simp only [if_true, ObjectId.ofText?_of_spells hs]

theorem fieldValue_written {i : ObjectId} {v : Value} (h : i.Written v) :
    fieldValue true v = .ok (.objectId i) := by
  have hconvert := convert_written h
  cases h with
  | itself => rfl
  | digits _ => exact congrArg Except.ok hconvert

/-- The condition of one operator. -/
theorem fieldValue_operator {name : String} (hdollar : name.toList.head? = some '$') {v w : Value}
    (h : operand true true v = .ok w) :
    fieldValue true (.document [(.text name, v)]) = .ok (.document [(.text name, w)]) := by
  have hoperator : isOperator (.text name) = .ok true := by
    simp [isOperator, Value.text?, hdollar]
  rw [Value.document, fieldValue, operands, hoperator]
  show ((do let w ← operand true true v; let ws ← operands true []; .ok ((Value.text name, w) :: ws)).map _ =
    _)
  rw [h]
  rfl

theorem fieldValue_unequal {i : ObjectId} {v : Value} (h : i.Written v) :
    fieldValue true (.document [(.text "$ne", v)]) = .ok (.document [(.text "$ne", .objectId i)]) := by
  refine fieldValue_operator (by decide) ?_
  have hconvert := convert_written h
  cases h with
  | itself => rfl
  | digits _ => exact congrArg Except.ok hconvert

theorem fieldValue_oneOf {ids : List ObjectId} {vs : List Value} (h : List.Forall₂ ObjectId.Written ids vs) :
    fieldValue true (.document [(.text "$in", .list vs)]) =
      .ok (.document [(.text "$in", .list (ids.map .objectId))]) := by
  refine fieldValue_operator (by decide) ?_
  have hitems : vs.map (convert true) = ids.map .objectId := by
    induction h with
    | nil => rfl
    | cons hv _ ih => rw [List.map_cons, List.map_cons, convert_written hv, ih]
  rw [operand, if_pos rfl, operandItems, hitems]

end Native

namespace Filter

theorem equals_objectId (i j : ObjectId) : (Value.objectId i).equals (.objectId j) = .ok (i == j) := by
  rfl

/-- A file satisfies a condition on the identifier exactly if its identifier does. -/
theorem accepts_id (engine : Engine) (f : StoredFile) (condition : Value) :
    accepts engine f.document [(.text "_id", condition)] =
      conditionAccepts engine (.objectId f.id) condition := by
  rw [accepts_field _ _ _ (by decide) (by decide), f.document_id]

theorem accepts_itself (engine : Engine) (f : StoredFile) (i : ObjectId) :
    accepts engine f.document [(.text "_id", .objectId i)] = .ok (f.id == i) := by
  rw [accepts_id]
  rfl

theorem accepts_unequal (engine : Engine) (f : StoredFile) (i : ObjectId) :
    accepts engine f.document [(.text "_id", .document [(.text "$ne", .objectId i)])] = .ok (f.id != i) := by
  rw [accepts_id, conditionAccepts_operator _ _ _ (by decide) (by decide)]
  rfl

theorem isAmong_objectIds (i : ObjectId) (ids : List ObjectId) :
    (Value.objectId i).isAmong (ids.map .objectId) = .ok (ids.contains i) := by
  induction ids with
  | nil => rfl
  | cons j ids ih =>
    rw [List.map_cons, Value.isAmong, equals_objectId, ih, List.contains_cons, Bool.beq_comm]
    cases hij : i == j <;> rfl

theorem accepts_oneOf (engine : Engine) (f : StoredFile) (ids : List ObjectId) :
    accepts engine f.document [(.text "_id", .document [(.text "$in", .list (ids.map .objectId))])] =
      .ok (ids.contains f.id) := by
  rw [accepts_id, conditionAccepts_operator _ _ _ (by decide) (by decide)]
  exact isAmong_objectIds f.id ids

end Filter

/-- A list of identifiers can be told. -/
theorem Value.writable_objectIds (ids : List ObjectId) :
    (Value.document [(.text "$in", .list (ids.map .objectId))]).writable = true := by
  have hitems : writableItems (ids.map .objectId) = true := by
    induction ids with
    | nil => rfl
    | cons i ids ih => exact ih
  show ((Value.text "$in").writable && writableItems (ids.map .objectId) && true) = true
  rw [hitems]
  rfl

/-! ## What is found -/

/-- As identifiers are distinct, one file has the identifier of a file of the bucket. -/
theorem Bucket.Distinct.filter_id {b : Bucket} (hb : b.Distinct) {f : StoredFile} (hf : f ∈ b.files) :
    b.files.filter (fun g => g.id == f.id) = [f] := by
  have hnodup : b.files.Nodup := .of_map _ hb
  refine List.perm_singleton.mp ?_
  refine (List.perm_ext_iff_of_nodup (hnodup.filter _) (List.nodup_singleton f)).mpr fun g => ?_
  rw [List.mem_filter, List.mem_singleton, beq_iff_eq]
  constructor
  · rintro ⟨hg, hid⟩
    exact hb.eq_of_id_eq hg hf hid
  · rintro rfl
    exact ⟨hf, rfl⟩

namespace Template

/-- The lookup of the filter succeeds and lists these files. -/
def Finds (t : Template) (s : Store) (filter : Entries) (listed : List StoredFile) : Prop :=
  (t.findParts s [.filter (.document filter)]).map Cursor.files = .ok listed

/-- A filter of one entry is a query of its own. -/
theorem ofParts_entry (e : Value × Value) :
    Query.ofParts [.filter (.document [e])] = .ok { criteria := [e] } :=
  rfl

/-- A condition on the identifier finds the files whose identifiers its form accepts. -/
theorem finds_of_condition {t : Template} {s : Store} {name : String} (hname : Native.IsIdName name)
    (js : List Filter.Joining) {condition w : Value} {p : StoredFile → Bool}
    (hform : Native.fieldValue true condition = .ok w) (hwritable : w.writable = true)
    (haccepts : ∀ f : StoredFile, Filter.accepts s.engine f.document [(.text "_id", w)] = .ok (p f)) :
    t.Finds s (Filter.wrapped js [(.text name, condition)]) ((s.bucket t.bucketName).files.filter p) := by
  have hfilter := Native.filter_wrapped js (Native.filter_id hname hform)
  have htold : (Value.document (Filter.wrapped js [(.text "_id", w)])).writable = true := by
    rw [Filter.writable_wrapped]
    show ((Value.text "_id").writable && w.writable && true) = true
    rw [hwritable]
    rfl
  obtain ⟨e, he⟩ : ∃ e, Filter.wrapped js [(.text name, condition)] = [e] := by
    cases js with
    | nil => exact ⟨_, rfl⟩
    | cons j js => exact ⟨_, rfl⟩
  rw [he] at hfilter ⊢
  have hfind := find_of_accepts (t := t) (s := s) (lookupFor_of_writable hfilter htold) fun f _ =>
    (Filter.accepts_wrapped s.engine f.document js _).trans (haccepts f)
  unfold Finds findParts
  rw [ofParts_entry]
  show (((t.find (some { criteria := [e] })).run s).1).map Cursor.files = _
  rw [hfind]
  rfl

/-- **Identifiers are found in every spelling.** Under either name, and inside lists of one filter of any depth, a
    list of identifiers finds the files that have one of them, in the order of the bucket; one identifier finds
    its file; and its exclusion finds all other files. -/
theorem find_of_identifiers {s : Store} (hs : s.Reachable) (t : Template) {name : String}
    (hname : Native.IsIdName name) (js : List Filter.Joining) :
    let files := (s.bucket t.bucketName).files
    let filter (condition : Value) := Filter.wrapped js [(.text name, condition)]
    (∀ ids written, List.Forall₂ ObjectId.Written ids written →
      t.Finds s (filter (.document [(.text "$in", .list written)]))
        (files.filter fun f => ids.contains f.id)) ∧
    ∀ f ∈ files, ∀ written, f.id.Written written →
      t.Finds s (filter written) [f] ∧
        t.Finds s (filter (.document [(.text "$ne", written)])) (files.filter fun g => g.id != f.id) := by
  intro files filter
  refine ⟨fun ids written hwritten => ?_, fun f hf written hwritten => ⟨?_, ?_⟩⟩
  · exact finds_of_condition hname js (Native.fieldValue_oneOf hwritten) (Value.writable_objectIds ids)
      fun f => Filter.accepts_oneOf s.engine f ids
  · have hone := finds_of_condition (t := t) (s := s) hname js (Native.fieldValue_written hwritten) rfl
      fun g => Filter.accepts_itself s.engine g f.id
    rwa [(hs.sound t.bucketName).distinct.filter_id hf] at hone
  · exact finds_of_condition hname js (Native.fieldValue_unequal hwritten) rfl
      fun g => Filter.accepts_unequal s.engine g f.id

/-- Of eleven files those with the numbers 1, 10 and 11 are asked for by themselves or by digits of either case, and
the one with the number 11 alone. -/
theorem find_of_mixed_case :
    let uploads : List Store.Action := List.replicate 11 (.upload "fs" (.text "a") [1] none .null)
    let s := uploads.foldl Store.Action.after {}
    let t : Template := {}
    let files := (s.bucket "fs").files
    let small : Value := .text "00000000000000000000000a"
    let capital : Value := .text "00000000000000000000000B"
    let oneOf : Value := .document [(.text "$in", .list [capital, small, .objectId ⟨1⟩])]
    ∃ listed f, listed.map (·.id.value) = [1, 10, 11] ∧ f.id = ⟨11⟩ ∧
      t.Finds s [(.text "$or", .list [.document [(.text "$and", .list [.document [(.text "id", oneOf)]])]])]
        listed ∧
      t.Finds s [(.text "_id", capital)] [f] ∧
      t.Finds s [(.text "_id", .document [(.text "$ne", capital)])] (files.filter fun g => g.id != f.id) := by
  intro uploads s t files small capital oneOf
  have hs : s.Reachable := Store.Reachable.empty.run uploads
  have hsmall : ObjectId.Written ⟨10⟩ small := .digits ⟨by decide, by decide +kernel⟩
  have hcapital : ObjectId.Written ⟨11⟩ capital := .digits ⟨by decide, by decide +kernel⟩
  have hlisted : (files.filter fun f => [⟨11⟩, ⟨10⟩, ⟨1⟩].contains f.id).map (·.id.value) = [1, 10, 11] := by
    decide +kernel
  obtain ⟨f, hf, hid⟩ : ∃ f ∈ files, f.id = ⟨11⟩ := by
    have hids : (⟨11⟩ : ObjectId) ∈ files.map StoredFile.id := by decide +kernel
    exact List.mem_map.mp hids
  obtain ⟨hin, -⟩ := find_of_identifiers hs t (.inl rfl) [.any, .all]
  obtain ⟨-, hone⟩ := find_of_identifiers hs t (.inr rfl) []
  obtain ⟨hfound, hothers⟩ := hone f hf capital (hid ▸ hcapital)
  exact ⟨_, f, hlisted, hid, hin _ _ (.cons hcapital (.cons hsmall (.cons .itself .nil))), hfound, hothers⟩

end Template

end FileDepot
