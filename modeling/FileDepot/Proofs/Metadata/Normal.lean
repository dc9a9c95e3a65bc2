import FileDepot.Proofs.Metadata.Writing

/-!
# Documents are in normal form

Whatever a source is made of, its document is a mapping with texts as keys, made of such mappings, lists and
values that a store keeps as they are. Writing it again changes nothing.

Contents:

* `Value.isKept`, `Value.Normal` — the normal form;
* `MetadataWriter.Converts`, `MetadataWriter.convert_eq_ok` — how a value is converted;
* `MetadataWriter.convert_normal` — every value is converted into it;
* `MetadataWriter.convert_of_normal` — a value in normal form is its own conversion;
* `MetadataWriter.write_normal` — documents are in normal form, and writing them again keeps them.
-/

namespace FileDepot

/-! ## The normal form -/

/-- A store keeps the value as it is: it is neither a mapping nor a list. -/
def Value.isKept : Value → Bool
  | .null | .bool _ | .int _ | .float _ | .text _ | .bytes _ | .dateTime _ | .objectId _ | .binary _ _
  | .storedDecimal _ | .storedRegex _ | .pattern _ => true
  | _ => false

theorem Value.parts_of_isKept {v : Value} (h : v.isKept = true) : v.parts = [] := by
  cases v with
  | null | bool b | int n | float x | text s | bytes bs | dateTime t | objectId i | binary bs k | storedDecimal x
  | storedRegex r | pattern p => rfl
  | _ => cases h

/-- The keys of the entries are texts. -/
def Entries.Named (es : Entries) : Prop :=
  ∀ e ∈ es, ∃ name, e.1 = .text name

/-- A value made of plain mappings with texts as keys, lists, and values that a store keeps as they are. -/
inductive Value.Normal : Value → Prop
  | kept {v : Value} (h : v.isKept = true) : Normal v
  | list {vs : List Value} (h : ∀ v ∈ vs, Normal v) : Normal (.list vs)
  | mapping {es : Entries} (hnamed : es.Named) (hdistinct : es.Distinct) (h : ∀ e ∈ es, Normal e.2) :
    Normal (.map .plain es)

/-- Pairs of texts and values in normal form make a mapping in normal form. -/
theorem Value.Normal.mapOf {es : Entries} (hnamed : es.Named) (h : ∀ e ∈ es, e.2.Normal) :
    (Value.mapOf .plain es).Normal := by
  refine .mapping (fun e he => ?_) (Entries.distinct_ofPairs es) fun e he => ?_
  · obtain ⟨e', he', hkey⟩ := (Entries.mem_ofPairs he).1
    rw [← hkey]
    exact hnamed e' he'
  · obtain ⟨e', he', hvalue⟩ := (Entries.mem_ofPairs he).2
    rw [← hvalue]
    exact h e' he'

namespace MetadataWriter

variable {w : MetadataWriter} {inModel : Bool}

/-! ## How values are converted -/

/-- How a value is converted: as the entries that it carries, item by item, as what is inside it, or at once. -/
inductive Converts (w : MetadataWriter) (inModel : Bool) : Value → Value → Prop
  | carried {v d : Value} {inner : Bool} {es : Entries} (hcarried : carried? w inModel v = some (inner, es))
    (hd : gathered (writeEntries w inner es) = .ok d) : Converts w inModel v d
  | items {v : Value} {ds : List Value} (hcarried : carried? w inModel v = none) (hinner : v.unwrapped = v)
    (hnull : v.isNull = false) (hds : v.parts.mapM (convert w inModel) = .ok ds) : Converts w inModel v (.list ds)
  | member {v d : Value} (hd : convert w false v = .ok d) : Converts w inModel (.member v) d
  | leaf {v d : Value} (hcarried : carried? w inModel v = none) (hinner : v.unwrapped = v) (hparts : v.parts = [])
    (hd : d.isKept = true ∨ d = .document []) (hnull : d.isNull = v.isNull) : Converts w inModel v d

theorem storedDecimal_kept {x : Decimal} {d : Value} (h : storedDecimal x = .ok d) :
    d.isKept = true ∧ d.isNull = false := by
  unfold storedDecimal at h
  split at h
  · obtain rfl := Except.ok.inj h
    exact ⟨rfl, rfl⟩
  all_goals cases h

/-- Of the values that the library knows nothing about only those without attributes are converted. -/
theorem gathered_foreign {f : Foreign} {d : Value} (h : gathered (foreign inModel f) = .ok d) : d = .document [] := by
  obtain ⟨es, hes, rfl⟩ := map_eq_ok.mp h
  cases f with
  | bare name =>
    obtain rfl := Except.ok.inj hes
    rfl
  | _ => cases hes

/-- **A value that is converted is converted in one of these ways.** -/
theorem convert_eq_ok {v d : Value} (h : convert w inModel v = .ok d) : Converts w inModel v d := by
  cases hcarried : carried? w inModel v with
  | some carried =>
    rw [convert_of_carried hcarried] at h
    exact .carried hcarried h
  | none =>
    cases v with
    | list vs | tuple vs | set fixed vs =>
      obtain ⟨ds, hds, rfl⟩ := map_eq_ok.mp h
      rw [convertItems_eq] at hds
      exact .items hcarried rfl rfl hds
    | namedTuple fs =>
      obtain ⟨ds, hds, rfl⟩ := map_eq_ok.mp h
      rw [convertPlaces_eq, convertItems_eq] at hds
      exact .items hcarried rfl rfl hds
    | member v => exact .member h
    | decimal x =>
      obtain ⟨hkept, hnull⟩ := storedDecimal_kept h
      exact .leaf hcarried rfl rfl (.inl hkept) hnull
    | foreign f =>
      obtain rfl := gathered_foreign h
      exact .leaf hcarried rfl rfl (.inr rfl) rfl
    | map kind es | model fs | record fs => cases hcarried
    | object fs =>
      rw [convert_object_of_not_carried hcarried] at h
      cases h
    | exporter source =>
      rw [convert_exporter_of_not_carried hcarried] at h
      cases h
    | _ =>
      obtain rfl := Except.ok.inj h
      exact .leaf hcarried rfl rfl (.inl rfl) rfl

/-! ## Conversion gives the normal form -/

/-- Entries whose values are converted into normal form make a mapping in normal form. -/
theorem gathered_normal {es : Entries} {d : Value}
    (hparts : ∀ e ∈ es, ∀ d, convert w inModel e.2 = .ok d → d.Normal)
    (h : gathered (writeEntries w inModel es) = .ok d) : d.Normal := by
  obtain ⟨es', hes, rfl⟩ := map_eq_ok.mp h
  rw [writeEntries_eq] at hes
  -- every written entry comes from an entry that is not left out
  have hentry : ∀ e' ∈ es', ∃ e ∈ es, convert w inModel e.2 = .ok e'.2 ∧ e'.1 = .text e.1.shown := by
    intro e' he'
    obtain ⟨e, he, hwrite⟩ := exists_of_mem_mapM hes he'
    obtain ⟨v, hv, rfl⟩ := writeEntry_eq_ok hwrite
    exact ⟨e, List.mem_of_mem_filter he, hv, rfl⟩
  refine .mapOf (fun e' he' => ?_) fun e' he' => ?_
  · obtain ⟨e, -, -, hkey⟩ := hentry e' he'
    exact ⟨_, hkey⟩
  · obtain ⟨e, he, hv, -⟩ := hentry e' he'
    exact hparts e he _ hv

/-- **Every value is converted into normal form.** -/
theorem convert_normal (v : Value) (inModel : Bool) (d : Value) (h : convert w inModel v = .ok d) :
    d.Normal := by
  induction v using Value.induction_parts generalizing inModel d with
  | parts v ih =>
    cases convert_eq_ok h with
    | carried hcarried hd => exact gathered_normal (fun e he => ih e.2 (mem_parts_of_carried hcarried he) _) hd
    | items _ _ _ hds =>
      refine .list fun d hd => ?_
      obtain ⟨u, hu, hconvert⟩ := exists_of_mem_mapM hds hd
      exact ih u hu inModel d hconvert
    | @member u _ hd => exact ih u (List.mem_singleton_self u) false d hd
    | leaf _ _ _ hd =>
      rcases hd with hkept | rfl
      · exact .kept hkept
      · exact .mapping (by simp [Entries.Named]) .nil (by simp)

/-! ## The normal form is kept -/

/-- The writer that keeps null entries. -/
def keepingNull (byAlias : Bool) : MetadataWriter :=
  { byAlias := byAlias, excludeNull := false }

/-- A mapping whose values are their own conversion is written as it is. -/
theorem gathered_keepingNull {byAlias : Bool} {es : Entries} (hnamed : es.Named) (hdistinct : es.Distinct)
    (h : ∀ e ∈ es, convert (keepingNull byAlias) inModel e.2 = .ok e.2) :
    gathered (writeEntries (keepingNull byAlias) inModel es) = .ok (.map .plain es) := by
  have hall : es.filter (fun e => !(keepingNull byAlias).leavesOut e.2) = es :=
    List.filter_eq_self.mpr fun e _ => rfl
  have hself : ∀ e ∈ es, writeEntry (keepingNull byAlias) inModel e = .ok e := by
    intro e he
    obtain ⟨name, hname⟩ := hnamed e he
    rw [writeEntry, h e he, hname, Value.printed_text]
    show Except.ok (Value.text name, e.2) = _
    rw [← hname]
  rw [writeEntries_eq, hall, mapM_eq_self hself, gathered]
  simp only [Except.map, Value.mapOf]
  rw [Entries.ofPairs_eq_self hdistinct]

/-- **A value in normal form is its own conversion.** -/
theorem convert_of_normal {d : Value} (h : d.Normal) (byAlias inModel : Bool) :
    convert (keepingNull byAlias) inModel d = .ok d := by
  induction h generalizing inModel with
  | @kept v hkept =>
    cases v with
    | null | bool b | int n | float x | text s | bytes bs | dateTime t | objectId i | binary bs k
    | storedDecimal x | storedRegex r | pattern p => rfl
    | _ => simp [Value.isKept] at hkept
  | list h ih =>
    rw [convert, convertItems_eq, mapM_eq_self fun v hv => ih v hv inModel]
    rfl
  | mapping hnamed hdistinct h ih =>
    rw [convert]
    exact gathered_keepingNull hnamed hdistinct fun e he => ih e he _

/-- **Documents are in normal form.** Whatever is written is a mapping in normal form, and writing it again
    without leaving out null entries gives the same mapping. -/
theorem write_normal {source d : Value} (h : w.write source = .ok d) :
    (∃ es, d = .document es) ∧ d.Normal ∧ ∀ byAlias, (keepingNull byAlias).write d = .ok d := by
  have hmapping : (∃ es, d = .document es) ∧ d.Normal := by
    cases hcarried : carried? w false source with
    | some carried =>
      rw [write_of_carried hcarried] at h
      obtain ⟨es, hes, rfl⟩ := map_eq_ok.mp h
      exact ⟨⟨_, rfl⟩, gathered_normal (fun e _ => convert_normal e.2 carried.1) h⟩
    | none =>
      obtain rfl := write_of_not_carried hcarried h
      exact ⟨⟨[], rfl⟩, .mapping (by simp [Entries.Named]) .nil (by simp)⟩
  obtain ⟨⟨es, rfl⟩, hnormal⟩ := hmapping
  refine ⟨⟨es, rfl⟩, hnormal, fun byAlias => ?_⟩
  exact convert_of_normal hnormal byAlias false

/-- An enumeration member, a date, a nested model, a tuple and a set in the attributes of an object are all
gone in its document. -/
theorem write_normal_attributes :
    let source : Value := .object [("kind", .member (.intMember 3)), ("day", .date ⟨2024, 5, 1⟩),
      ("owner", .model [("name", some "Name", .text "ann"), ("mail", none, .null)]),
      ("pair", .tuple [.set false [.int 1], .null])]
    let d : Value := .document [(.text "kind", .int 3), (.text "day", .dateTime (.ofDate ⟨2024, 5, 1⟩)),
      (.text "owner", .document [(.text "Name", .text "ann")]),
      (.text "pair", .list [.list [.int 1], .null])]
    ({} : MetadataWriter).write source = .ok d ∧ d.Normal ∧ (keepingNull true).write d = .ok d := by
  intro source d
  have hwrite : ({} : MetadataWriter).write source = .ok d := by rfl
  obtain ⟨-, hnormal, hagain⟩ := write_normal hwrite
  exact ⟨hwrite, hnormal, hagain true⟩

end MetadataWriter

end FileDepot
