import FileDepot.Proofs.Metadata.Writing

/-!
# Carriers of the same fields

Fields are carried by a mapping, a record, an object, a model or an object that exports them, and their
document is the same. A model differs in that the models and records inside it are turned into mappings first,
at any depth; the other carriers leave them to be written when they are reached.

Contents:

* `convert_mark` — the mark of values in a model decides only how a refusal is worded;
* `expanded` — a value with the models and records in it turned into mappings;
* `convert_expanded` — it is converted as the value itself;
* `Carries`, `write_carriers` — all carriers of fields have the same document, or none.
-/

namespace FileDepot.MetadataWriter

variable {w : MetadataWriter}

/-! ## Parts with the same answers -/

/-- Items that are converted alike make lists that are converted alike. -/
theorem convertItems_map {mark mark' : Bool} {g : Value → Value} {vs : List Value}
    (h : ∀ v ∈ vs, (convert w mark (g v)).toOption = (convert w mark' v).toOption) :
    (convertItems w mark (vs.map g)).toOption = (convertItems w mark' vs).toOption := by
  rw [convertItems_eq, convertItems_eq, List.mapM_map]
  exact toOption_mapM h

/-- Entries whose values are converted alike, null for null, make documents that are the same. -/
theorem gathered_map {mark mark' : Bool} {g : Value → Value} {es : Entries}
    (hnull : ∀ e ∈ es, (g e.2).isNull = e.2.isNull)
    (h : ∀ e ∈ es, (convert w mark (g e.2)).toOption = (convert w mark' e.2).toOption) :
    (gathered (writeEntries w mark (es.map fun e => (e.1, g e.2)))).toOption =
      (gathered (writeEntries w mark' es)).toOption := by
  have hentries : (writeEntries w mark (es.map fun e => (e.1, g e.2))).toOption =
      (writeEntries w mark' es).toOption := by
    induction es with
    | nil => rfl
    | cons e es ih =>
      obtain ⟨k, v⟩ := e
      obtain ⟨hv, hes⟩ := List.forall_mem_cons.mp h
      obtain ⟨hnullv, hnulls⟩ := List.forall_mem_cons.mp hnull
      have hleft : w.leavesOut (g v) = w.leavesOut v := by rw [leavesOut, leavesOut, hnullv]
      rw [List.map_cons, writeEntries, writeEntries, hleft]
      cases w.leavesOut v with
      | true => exact ih hnulls hes
      | false => simp only [Bool.false_eq_true, if_false, toOption_bind, hv, ih hnulls hes]
  rw [gathered, gathered, toOption_map, toOption_map, hentries]

/-! ## The mark of values in a model -/

/-- Which entries a carrier is written as does not depend on the mark. -/
theorem carried_mark {mark : Bool} {v : Value} {carried : Bool × Entries} (h : carried? w mark v = some carried)
    (mark' : Bool) : ∃ inner, carried? w mark' v = some (inner, carried.2) := by
  cases v with
  | map kind es | model fs | record fs =>
    obtain rfl := Option.some.inj h
    exact ⟨_, rfl⟩
  | object fs =>
    cases hexports : exportsItself fs with
    | true => simp [carried?, hexports] at h
    | false =>
      rw [carried_object hexports] at h ⊢
      obtain rfl := Option.some.inj h
      exact ⟨_, rfl⟩
  | exporter d =>
    cases d with
    | map kind es =>
      obtain rfl := Option.some.inj h
      exact ⟨_, rfl⟩
    | _ => simp [carried?] at h
  | _ => simp [carried?] at h

/-- **The mark decides only how a refusal is worded.** -/
theorem convert_mark (mark mark' : Bool) (v : Value) :
    (convert w mark v).toOption = (convert w mark' v).toOption := by
  induction v using Value.induction_parts generalizing mark mark' with
  | parts v ih =>
    cases hcarried : carried? w mark v with
    | some carried =>
      -- a mapping that cannot be changed, or an object, sets the mark of its own values anew
      obtain ⟨inner, hcarried'⟩ := carried_mark hcarried mark'
      rw [convert_of_carried hcarried, convert_of_carried hcarried']
      simpa using gathered_map (g := id) (fun e he => rfl)
        fun e he => ih e.2 (mem_parts_of_carried hcarried he) carried.1 inner
    | none =>
      have hitems : (convertItems w mark v.parts).toOption = (convertItems w mark' v.parts).toOption := by
        simpa using convertItems_map (g := id) fun u hu => ih u hu mark mark'
      cases v with
      | list vs | tuple vs | set fixed vs =>
        rw [convert, convert, toOption_map, toOption_map]
        exact congrArg _ hitems
      | namedTuple fs =>
        rw [convert, convert, convertPlaces_eq, convertPlaces_eq, toOption_map, toOption_map]
        exact congrArg _ hitems
      | foreign f => cases f <;> rfl
      | exporter d => cases d <;> rfl
      | map kind es | model fs | record fs => simp [carried?] at hcarried
      | _ => rfl

/-! ## Models and records turned into mappings -/

mutual

/-- The value with the models and records in it turned into mappings, down to the first values that are no
model, record, list, tuple or mapping that can be changed. -/
def expanded (w : MetadataWriter) : Value → Value
  | .list vs => .list (expandedItems w vs)
  | .tuple vs => .tuple (expandedItems w vs)
  | .namedTuple fs => .namedTuple (expandedFields w fs)
  | .map .view es => .map .view es
  | .map _ es => .document (expandedEntries w es)
  | .model fs => .document (textEntries (lastFields (expandedModel w fs)))
  | .record fs => .document (textEntries (expandedFields w fs))
  | v => v
termination_by structural v => v

/-- Items with the models and records in them turned into mappings. -/
def expandedItems (w : MetadataWriter) : List Value → List Value
  | [] => []
  | v :: vs => expanded w v :: expandedItems w vs
termination_by structural vs => vs

/-- Entries with the models and records in their values turned into mappings. -/
def expandedEntries (w : MetadataWriter) : List (Value × Value) → Entries
  | [] => []
  | (k, v) :: es => (k, expanded w v) :: expandedEntries w es
termination_by structural es => es

/-- Fields with the models and records in their values turned into mappings. -/
def expandedFields (w : MetadataWriter) : List (String × Value) → List (String × Value)
  | [] => []
  | (name, v) :: fs => (name, expanded w v) :: expandedFields w fs
termination_by structural fs => fs

/-- The fields of a model under their keys, with the models and records in their values turned into
mappings. -/
def expandedModel (w : MetadataWriter) : List (String × Option String × Value) → List (String × Value)
  | [] => []
  | (name, secondName, v) :: fs => (w.fieldKey name secondName, expanded w v) :: expandedModel w fs
termination_by structural fs => fs

end

theorem expandedItems_eq (vs : List Value) : expandedItems w vs = vs.map (expanded w) := by
  induction vs with
  | nil => rfl
  | cons v vs ih => rw [expandedItems, ih, List.map_cons]

theorem expandedEntries_eq (es : Entries) :
    expandedEntries w es = es.map fun e => (e.1, expanded w e.2) := by
  induction es with
  | nil => rfl
  | cons e es ih =>
    obtain ⟨k, v⟩ := e
    rw [expandedEntries, ih, List.map_cons]

theorem expandedFields_eq (fs : List (String × Value)) :
    expandedFields w fs = fs.map fun f => (f.1, expanded w f.2) := by
  induction fs with
  | nil => rfl
  | cons f fs ih =>
    obtain ⟨name, v⟩ := f
    rw [expandedFields, ih, List.map_cons]

theorem expandedModel_eq (fs : List (String × Option String × Value)) :
    expandedModel w fs = (keyedFields w fs).map fun f => (f.1, expanded w f.2) := by
  rw [keyedFields]
  induction fs with
  | nil => rfl
  | cons f fs ih =>
    obtain ⟨name, secondName, v⟩ := f
    rw [expandedModel, ih, List.map_cons, List.map_cons]

theorem textEntries_map (g : Value → Value) (fs : List (String × Value)) :
    textEntries (fs.map fun f => (f.1, g f.2)) = (textEntries fs).map fun e => (e.1, g e.2) := by
  simp [textEntries]

/-- Only null is expanded into null. -/
theorem isNull_expanded (v : Value) : (expanded w v).isNull = v.isNull := by
  cases v with
  | map kind es => cases kind <;> rfl
  | _ => rfl

/-- The mapping that a model, a record or a mapping that can be changed is expanded into. -/
theorem expanded_of_carried {v : Value} {mark : Bool} {es : Entries}
    (h : carried? w false v = some (mark, es)) :
    expanded w v = v ∨ expanded w v = .document (es.map fun e => (e.1, expanded w e.2)) := by
  cases v with
  | map kind es' =>
    obtain ⟨-, rfl⟩ := Prod.mk.inj (Option.some.inj h)
    cases kind with
    | view => exact .inl rfl
    | plain | ordered => exact .inr (by rw [expanded, expandedEntries_eq]; simp)
  | model fs =>
    obtain ⟨-, rfl⟩ := Prod.mk.inj (Option.some.inj h)
    refine .inr ?_
    rw [expanded, expandedModel_eq, lastFields_map, textEntries_map, ofPairs_textEntries]
  | record fs =>
    obtain ⟨-, rfl⟩ := Prod.mk.inj (Option.some.inj h)
    refine .inr ?_
    rw [expanded, expandedFields_eq, textEntries_map]
  | object fs | exporter d => exact .inl rfl
  | _ => simp [carried?] at h

/-- **An expanded value is converted as the value itself.** -/
theorem convert_expanded (mark mark' : Bool) (v : Value) :
    (convert w mark (expanded w v)).toOption = (convert w mark' v).toOption := by
  induction v using Value.induction_parts generalizing mark mark' with
  | parts v ih =>
    cases hcarried : carried? w false v with
    | some carried =>
      obtain ⟨inner, es⟩ := carried
      rcases expanded_of_carried hcarried with hsame | hmapping
      · rw [hsame]
        exact convert_mark mark mark' v
      · -- the mapping has the entries of the carrier, so both are written entry by entry
        rw [hmapping, convert_mark mark' false, convert_of_carried hcarried]
        exact gathered_map (fun e _ => isNull_expanded e.2)
          fun e he => ih e.2 (mem_parts_of_carried hcarried he) _ inner
    | none =>
      have hitems := convertItems_map fun u hu => ih u hu mark mark'
      cases v with
      | list vs | tuple vs =>
        rw [expanded, convert, convert, toOption_map, toOption_map, expandedItems_eq]
        exact congrArg _ hitems
      | namedTuple fs =>
        have hplaces : (expandedFields w fs).map (·.2) = (fs.map (·.2)).map (expanded w) := by
          rw [expandedFields_eq, List.map_map, List.map_map]
          rfl
        rw [expanded, convert, convert, toOption_map, toOption_map, convertPlaces_eq, convertPlaces_eq,
          hplaces]
        exact congrArg _ hitems
      | map kind es | model fs | record fs => simp [carried?] at hcarried
      | _ => exact convert_mark mark mark' _

/-- A carrier of fields that is expanded first has the same document. -/
theorem write_expanded {v : Value} {mark : Bool} {es : Entries} (h : carried? w false v = some (mark, es)) :
    (w.write (expanded w v)).toOption = (w.write v).toOption := by
  rw [write_of_carried h, ← convert_of_carried h, ← convert_expanded false false v]
  rcases expanded_of_carried h with hsame | hmapping
  · rw [hsame, convert_of_carried h, write_of_carried h]
  · rw [hmapping]
    rfl

/-! ## Carriers -/

/-- The carriers of fields: a mapping of any kind, a record, an object, a model whose fields have no second
names, and an object that exports a mapping. -/
inductive Carries (fs : List (String × Value)) : Value → Prop
  | mapping (kind : MapKind) : Carries fs (.map kind (textEntries fs))
  | record : Carries fs (.record fs)
  | object : Carries fs (.object fs)
  | model : Carries fs (.model (fs.map fun f => (f.1, none, f.2)))
  | exporter (kind : MapKind) : Carries fs (.exporter (.map kind (textEntries fs)))

/-- The fields can be carried in every way: their names are distinct, none is private, and none is that of
the attribute by which an object exports itself. -/
structure Carriable (fs : List (String × Value)) : Prop where
  distinct : (fs.map (·.1)).Nodup
  isPublic : ∀ f ∈ fs, isPrivate f.1 = false
  unexported : ∀ f ∈ fs, f.1 ≠ "to_dict"

theorem Carriable.exportsItself_eq {fs : List (String × Value)} (h : Carriable fs) :
    exportsItself fs = false := by
  rw [exportsItself, List.any_eq_false]
  intro f hf
  simp [h.unexported f hf]

/-- Whatever carries the fields is written as the mapping of them. -/
theorem carried_of_carries {fs : List (String × Value)} (h : Carriable fs) {c : Value} (hc : Carries fs c) :
    ∃ mark, carried? w false c = some (mark, textEntries fs) := by
  cases hc with
  | mapping kind | record | exporter kind => exact ⟨_, rfl⟩
  | object =>
    have hall : fs.filter (fun f => !isPrivate f.1) = fs :=
      List.filter_eq_self.mpr fun f hf => by simp [h.isPublic f hf]
    rw [carried_object h.exportsItself_eq, hall]
    exact ⟨_, rfl⟩
  | model =>
    have hkeyed : keyedFields w (fs.map fun f => (f.1, none, f.2)) = fs := by
      simp [keyedFields, fieldKey, List.map_map, Function.comp_def]
    refine ⟨true, ?_⟩
    rw [carried?, hkeyed, ofPairs_textEntries, lastFields_eq_self h.distinct]

/-- **All carriers of the same fields have the same document, or none has one.** It does not matter whether
the models and records inside are written when they are reached, or turned into mappings before. -/
theorem write_carriers (w : MetadataWriter) {fs : List (String × Value)} (h : Carriable fs) :
    ∃ answer : Option Value, ∀ c, Carries fs c →
      (w.write c).toOption = answer ∧ (w.write (expanded w c)).toOption = answer := by
  refine ⟨(gathered (writeEntries w false (textEntries fs))).toOption, fun c hc => ?_⟩
  obtain ⟨mark, hcarried⟩ := carried_of_carries h hc
  have hwrite : (w.write c).toOption = (gathered (writeEntries w false (textEntries fs))).toOption := by
    rw [write_of_carried hcarried]
    simpa using gathered_map (g := id) (fun e he => rfl) fun e he => convert_mark mark false e.2
  exact ⟨hwrite, (write_expanded hcarried).trans hwrite⟩

/-- A record in a tuple, an object in the record and a model in the object: the record is turned into a mapping
before, the model is written when it is reached, and the document is that of the plain mapping. -/
theorem write_carriers_nested :
    let fs : List (String × Value) := [("size", .member (.int 3)), ("note", .null),
      ("pages", .tuple [.record [("mark", .object [("of", .model [("id", some "ID", .int 7)])])]])]
    let d : Value := .document [(.text "size", .int 3),
      (.text "pages", .list [.document [(.text "mark", .document [(.text "of", .document [(.text "ID", .int 7)])])]])]
    let carrier : Value := .model (fs.map fun f => (f.1, none, f.2))
    let w : MetadataWriter := {}
    Carriable fs ∧ w.write (.map .plain (textEntries fs)) = .ok d ∧ (w.write carrier).toOption = some d ∧
      (w.write (expanded w carrier)).toOption = some d := by
  intro fs d carrier w
  have hfs : Carriable fs := ⟨by decide, by decide, by decide⟩
  have hmapping : w.write (.map .plain (textEntries fs)) = .ok d := by rfl
  obtain ⟨answer, hanswer⟩ := write_carriers w hfs
  have hsame : answer = some d := by
    rw [← (hanswer _ (.mapping .plain)).1, hmapping]
    rfl
  obtain ⟨hwrite, hexpanded⟩ := hanswer carrier .model
  exact ⟨hfs, hmapping, hwrite.trans hsame, hexpanded.trans hsame⟩

end FileDepot.MetadataWriter
