import FileDepot.Proofs.Query.Stored
import FileDepot.Proofs.Value.Entries
import FileDepot.Query.Native

/-!
# Filters keep their meaning

The form in which a store executes a filter differs from the filter in its patterns only, as long as the filter
holds no tuples and does not name the identifier. So both accept the same records.

Contents:

* `Native.Operand`, `Native.Plain` — the filters that are looked at;
* `Native.operand_storedAs` — the values of their fields;
* `Native.filterEntries_storedAs` — the filters themselves;
* `Native.filter_accepts` — the same records are accepted.
-/

namespace FileDepot.Native

/-- The value is neither taken apart nor a compiled pattern. -/
def isScalar : Value → Bool
  | .list _ | .tuple _ | .namedTuple _ | .map _ _ | .pattern _ => false
  | _ => true

/-- A value made of scalars, compiled patterns, lists, and plain mappings with texts as keys. -/
inductive Operand : Value → Prop
  | scalar {v : Value} (h : isScalar v = true) : Operand v
  | pattern {p : Pattern} (h : p.WellFlagged) : Operand (.pattern p)
  | list {vs : List Value} (h : ∀ v ∈ vs, Operand v) : Operand (.list vs)
  | mapping {es : Entries} (hkeys : ∀ e ∈ es, e.1.text?.isSome = true) (h : ∀ e ∈ es, Operand e.2) :
    Operand (.map .plain es)

/-- A filter with keys of its own that holds such values, and under a key that joins filters a list of such
filters. No key names the identifier. -/
inductive Plain : Entries → Prop
  | nil : Plain []
  | field {k v : Value} {es : Entries} (hlogical : isLogical k = false) (hid : isIdKey k = false)
    (hv : Operand v) (hnew : ∀ e ∈ es, k.same e.1 = false) (hes : Plain es) : Plain ((k, v) :: es)
  | joined {k : Value} {fs : List Entries} {es : Entries} (hlogical : isLogical k = true)
    (hfs : ∀ f ∈ fs, Plain f) (hnew : ∀ e ∈ es, k.same e.1 = false) (hes : Plain es) :
    Plain ((k, .list (fs.map .document)) :: es)

theorem Plain.distinct {es : Entries} (h : Plain es) : es.Distinct := by
  induction h with
  | nil => exact .nil
  | field _ _ _ hnew _ ih => exact .cons (List.forall_mem_map.mpr hnew) ih
  | joined _ _ hnew _ _ ih => exact .cons (List.forall_mem_map.mpr hnew) ih

/-! ## Values -/

/-- A value that is not taken apart is kept, or is a pattern that takes its stored form. -/
theorem convert_storedAs {v : Value} (h : Operand v) : StoredAs v (convert false v) := by
  cases h with
  | scalar hscalar =>
    cases v with
    | pattern p => cases hscalar
    | _ => exact .same _
  | pattern hp => exact .pattern hp
  | list | mapping => exact .same _

theorem operandItems_storedAs {vs : List Value} (h : ∀ v ∈ vs, Operand v) :
    StoredAs (.list vs) (operandItems false vs) := by
  refine .list ?_
  induction vs with
  | nil => exact .nil
  | cons v vs ih =>
    obtain ⟨hv, hvs⟩ := List.forall_mem_cons.mp h
    exact .cons (convert_storedAs hv) (ih hvs)

/-- The value has a form as the value of a field, and one as the value of an operator or of another key inside
an operator document; all that they change is the form of patterns. -/
def Converts (v : Value) : Prop :=
  (∃ w, fieldValue false v = .ok w ∧ StoredAs v w) ∧
    ∀ dollar, ∃ w, operand false dollar v = .ok w ∧ StoredAs v w

theorem fieldItems_storedAs {vs : List Value} (h : ∀ v ∈ vs, Converts v) :
    ∃ ws, fieldItems false vs = .ok ws ∧ ItemsStoredAs vs ws := by
  induction vs with
  | nil => exact ⟨[], rfl, .nil⟩
  | cons v vs ih =>
    obtain ⟨hv, hvs⟩ := List.forall_mem_cons.mp h
    obtain ⟨w, hw, hstored⟩ := hv.1
    obtain ⟨ws, hws, hitems⟩ := ih hvs
    refine ⟨w :: ws, ?_, .cons hstored hitems⟩
    rw [fieldItems, hw, hws]
    rfl

theorem operands_storedAs {es : Entries} (hkeys : ∀ e ∈ es, e.1.text?.isSome = true)
    (h : ∀ e ∈ es, Converts e.2) : ∃ gs, operands false es = .ok gs ∧ EntriesStoredAs es gs := by
  induction es with
  | nil => exact ⟨[], rfl, .nil⟩
  | cons e es ih =>
    obtain ⟨k, v⟩ := e
    obtain ⟨hv, hes⟩ := List.forall_mem_cons.mp h
    obtain ⟨hkey, hkeys⟩ := List.forall_mem_cons.mp hkeys
    obtain ⟨name, hname⟩ := Option.isSome_iff_exists.mp hkey
    have hdollar : isOperator k = .ok (name.toList.head? == some '$') := by
      unfold isOperator
      rw [hname]
    obtain ⟨w, hw, hstored⟩ := hv.2 (name.toList.head? == some '$')
    obtain ⟨gs, hgs, hentries⟩ := ih hkeys hes
    refine ⟨(k, w) :: gs, ?_, .cons hstored hentries⟩
    rw [operands, hdollar, hgs]
    show (operand false _ v >>= _) = _
    rw [hw]
    rfl

/-- **The values of fields change only the form of their patterns.** -/
theorem operand_storedAs {v : Value} (h : Operand v) : Converts v := by
  induction h with
  | @scalar v hscalar =>
    have hconvert := convert_storedAs (.scalar hscalar)
    cases v with
    | list vs | tuple vs | namedTuple fs | map kind es | pattern p => cases hscalar
    | _ => exact ⟨⟨_, rfl, hconvert⟩, fun dollar => ⟨_, rfl, hconvert⟩⟩
  | pattern hp => exact ⟨⟨_, rfl, .pattern hp⟩, fun dollar => ⟨_, rfl, .pattern hp⟩⟩
  | @list vs h ih =>
    obtain ⟨ws, hws, hitems⟩ := fieldItems_storedAs ih
    refine ⟨⟨.list ws, ?_, .list hitems⟩, fun dollar => ?_⟩
    · rw [fieldValue, hws]
      rfl
    · -- only under the key of an operator are the items of a list converted
      cases dollar with
      | true => exact ⟨_, rfl, operandItems_storedAs h⟩
      | false => exact ⟨_, rfl, .same _⟩
  | mapping hkeys h ih =>
    obtain ⟨gs, hgs, hentries⟩ := operands_storedAs hkeys ih
    refine ⟨⟨.document gs, ?_, .mapping hentries⟩, fun dollar => ⟨.document gs, ?_, .mapping hentries⟩⟩
    · rw [fieldValue, hgs]
      rfl
    · rw [operand, hgs]
      rfl

/-! ## Filters -/

/-- A filter whose entries change only the form of their patterns is made of these entries. -/
theorem filter_of_entries {es gs : Entries} (h : Plain es) (hgs : filterEntries es = .ok gs)
    (hstored : EntriesStoredAs es gs) (kind : MapKind) : filter (.map kind es) = .ok gs := by
  have hdistinct : gs.Distinct := by
    have hes := h.distinct
    rwa [Entries.Distinct, hstored.keys_eq] at hes
  rw [filter, hgs, Except.map, Entries.ofPairs_eq_self hdistinct]

/-- Joined filters change only the form of their patterns if each does. -/
theorem filters_storedAs {fs : List Entries} (hfs : ∀ f ∈ fs, Plain f)
    (h : ∀ f ∈ fs, ∃ gs, filterEntries f = .ok gs ∧ EntriesStoredAs f gs) :
    ∃ ws, filters (fs.map .document) = .ok ws ∧ ItemsStoredAs (fs.map .document) ws := by
  induction fs with
  | nil => exact ⟨[], rfl, .nil⟩
  | cons f fs ih =>
    obtain ⟨hf, hfs⟩ := List.forall_mem_cons.mp hfs
    obtain ⟨⟨gs, hgs, hstored⟩, hrest⟩ := List.forall_mem_cons.mp h
    obtain ⟨ws, hws, hitems⟩ := ih hfs hrest
    refine ⟨.document gs :: ws, ?_, .cons (.mapping hstored) hitems⟩
    rw [List.map_cons, filters, Value.document, filter_of_entries hf hgs hstored, hws]
    rfl

/-- **A filter changes only the form of its patterns.** -/
theorem filterEntries_storedAs {es : Entries} (h : Plain es) :
    ∃ gs, filterEntries es = .ok gs ∧ EntriesStoredAs es gs := by
  induction h with
  | nil => exact ⟨[], rfl, .nil⟩
  | @field k v es hlogical hid hv _ _ ih =>
    obtain ⟨w, hw, hstored⟩ := (operand_storedAs hv).1
    obtain ⟨gs, hgs, hentries⟩ := ih
    refine ⟨(k, w) :: gs, ?_, .cons hstored hentries⟩
    have hname : fieldName k = k := by
      rw [fieldName, hid]
      rfl
    rw [filterEntries, hlogical, hid, hw, hgs, hname]
    rfl
  | @joined k fs es hlogical hfs _ _ ihfs ih =>
    obtain ⟨ws, hws, hitems⟩ := filters_storedAs hfs ihfs
    obtain ⟨gs, hgs, hentries⟩ := ih
    refine ⟨(k, .list ws) :: gs, ?_, .cons (.list hitems) hentries⟩
    rw [filterEntries, hlogical, joinedFilters, hws, hgs]
    rfl

/-- **The form that a store executes accepts the records that the filter accepts**, as long as they hold no
patterns; where testing the filter fails, it fails in the same way. -/
theorem filter_accepts {es : Entries} (h : Plain es) (kind : MapKind) {f : StoredFile}
    (hf : f.metadata.PatternFree) :
    ∃ gs, filter (.map kind es) = .ok gs ∧
      ∀ engine, Filter.accepts engine f.document gs = Filter.accepts engine f.document es := by
  obtain ⟨gs, hgs, hstored⟩ := filterEntries_storedAs h
  refine ⟨gs, filter_of_entries h hgs hstored kind, fun engine => ?_⟩
  exact (Filter.accepts_storedAs engine (StoredFile.document_patternFree hf) hstored).symm

/-- Patterns as the value of a field, under an operator and in the list of one, in a filter that another one
joins; one of them looks ahead, which is not read. The file is accepted for its tag. -/
theorem filter_accepts_joined :
    let p := Pattern.compile (.text "^A") Pattern.ignoreCaseFlag
    let ahead := Pattern.compile (.text "^(?!tmp)b") 0
    let engine : Engine := fun _ text => .ok ("b".toList.isPrefixOf text.toList)
    let byName : Entries := [(.text "filename", .pattern p)]
    let byTag : Entries := [(.text "metadata.tag", .document [(.text "$in", .list [.pattern p, .text "b"]),
      (.text "$regex", .pattern ahead)])]
    let es : Entries := [(.text "$or", .list ([byName, byTag].map .document))]
    let f : StoredFile := { (default : StoredFile) with
      filename := "c", metadata := .document [(.text "tag", .text "b")] }
    Plain es ∧ f.metadata.PatternFree ∧ Filter.accepts engine f.document es = .ok true ∧
      ∃ gs, filter (.document es) = .ok gs ∧ Filter.accepts engine f.document gs = .ok true := by
  intro p ahead engine byName byTag es f
  have hcompiled : p.WellFlagged ∧ ahead.WellFlagged :=
    ⟨Pattern.wellFlagged_compile _ rfl rfl, Pattern.wellFlagged_compile _ rfl rfl⟩
  have hname : Plain byName := .field rfl rfl (.pattern hcompiled.1) (by simp) .nil
  have hin : Operand (.list [.pattern p, .text "b"]) :=
    .list (by simpa using ⟨.pattern hcompiled.1, .scalar rfl⟩)
  have htag : Plain byTag :=
    .field rfl rfl (.mapping (by simp [Value.text?]) (by simpa using ⟨hin, .pattern hcompiled.2⟩)) (by simp) .nil
  have hplain : Plain es := .joined rfl (by simpa using ⟨hname, htag⟩) (by simp) .nil
  have hfree : f.metadata.PatternFree :=
    .mk rfl (by simpa [f, Value.parts, Value.document] using Value.patternFree_of_parts_eq_nil rfl rfl)
  have haccepts : Filter.accepts engine f.document es = .ok true := by decide +kernel
  obtain ⟨gs, hgs, hsame⟩ := filter_accepts hplain .plain hfree
  exact ⟨hplain, hfree, haccepts, gs, hgs, (hsame engine).trans haccepts⟩

end FileDepot.Native
