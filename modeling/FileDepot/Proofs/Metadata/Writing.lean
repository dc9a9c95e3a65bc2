import FileDepot.Metadata.Writer
import FileDepot.Proofs.Answers
import FileDepot.Proofs.Value.Entries
import FileDepot.Proofs.Value.Parts

/-!
# Values written part by part

Each list of parts is written by a step for every part. All carriers of fields come down to the entries of a
mapping: what the fields of a record and the attributes of an object give is what a mapping of them gives.

Contents:

* `convertItems_eq`, `convertPlaces_eq` — items;
* `writeEntries_eq`, `writeFields_eq`, `writeAttributes_eq`, `writeModel_eq` — entries;
* `textEntries` — fields as the entries of a mapping;
* `inTurn_eq`, `lastFields_map`, `ofPairs_textEntries` — the fields of a model, which may share keys.
-/

namespace FileDepot.MetadataWriter

variable (w : MetadataWriter) (inModel : Bool)

/-! ## Items -/

theorem convertItems_eq (vs : List Value) : convertItems w inModel vs = vs.mapM (convert w inModel) := by
  induction vs with
  | nil => rfl
  | cons v vs ih =>
    rw [convertItems, ih, List.mapM_cons]
    rfl

theorem convertPlaces_eq (fs : List (String × Value)) :
    convertPlaces w inModel fs = convertItems w inModel (fs.map (·.2)) := by
  induction fs with
  | nil => rfl
  | cons f fs ih =>
    obtain ⟨name, v⟩ := f
    rw [convertPlaces, ih, List.map_cons, convertItems]

/-! ## Entries -/

/-- One entry as a store keeps it. -/
def writeEntry (e : Value × Value) : Except Failure (Value × Value) := do
  let key ← e.1.printed
  let v ← convert w inModel e.2
  .ok (.text key, v)

variable {w inModel} in
/-- An entry that is written has its key as it is shown. -/
theorem writeEntry_eq_ok {e e' : Value × Value} (h : writeEntry w inModel e = .ok e') :
    ∃ v, convert w inModel e.2 = .ok v ∧ e' = (.text e.1.shown, v) := by
  obtain ⟨key, hkey, h⟩ := bind_eq_ok.mp h
  obtain ⟨v, hv, h⟩ := bind_eq_ok.mp h
  obtain rfl := Except.ok.inj h
  exact ⟨v, hv, by rw [Value.shown_of_printed hkey]⟩

/-- The entries are written one by one, without those that are left out. -/
theorem writeEntries_eq (es : Entries) :
    writeEntries w inModel es = (es.filter fun e => !w.leavesOut e.2).mapM (writeEntry w inModel) := by
  induction es with
  | nil => rfl
  | cons e es ih =>
    obtain ⟨k, v⟩ := e
    rw [writeEntries, ih, List.filter_cons]
    cases w.leavesOut v with
    | true => rfl
    | false =>
      simp only [Bool.false_eq_true, if_false, Bool.not_false, if_true, List.mapM_cons, writeEntry]
      cases k.printed <;> cases convert w inModel v <;> rfl

/-- Fields as the entries of a mapping. -/
def textEntries (fs : List (String × Value)) : Entries :=
  fs.map fun f => (.text f.1, f.2)

@[simp] theorem textEntries_cons (name : String) (v : Value) (fs : List (String × Value)) :
    textEntries ((name, v) :: fs) = (.text name, v) :: textEntries fs := rfl

theorem textEntries_concat (fs : List (String × Value)) (f : String × Value) :
    textEntries (fs ++ [f]) = textEntries fs ++ [(.text f.1, f.2)] := by
  simp [textEntries]

theorem distinct_textEntries {fs : List (String × Value)} (h : (fs.map (·.1)).Nodup) :
    (textEntries fs).Distinct := by
  simp only [Entries.Distinct, textEntries, List.map_map, List.pairwise_map]
  refine (List.pairwise_map.mp h).imp fun {f g} hne => ?_
  rw [Function.comp, Function.comp, Value.same_text, Value.text?]
  simpa using hne

theorem writeFields_eq (fs : List (String × Value)) :
    writeFields w inModel fs = writeEntries w inModel (textEntries fs) := by
  induction fs with
  | nil => rfl
  | cons f fs ih =>
    obtain ⟨name, v⟩ := f
    rw [writeFields, ih, textEntries_cons, writeEntries]
    rfl

/-- The private attributes of an object are not looked at. -/
theorem writeAttributes_eq (fs : List (String × Value)) :
    writeAttributes w fs = writeFields w false (fs.filter fun f => !isPrivate f.1) := by
  induction fs with
  | nil => rfl
  | cons f fs ih =>
    obtain ⟨name, v⟩ := f
    rw [writeAttributes, ih, List.filter_cons]
    cases isPrivate name with
    | true => rfl
    | false =>
      simp only [Bool.false_or, Bool.not_false, if_true]
      rw [writeFields]

/-! ## The fields of a model -/

/-- A field as a store keeps it, unless it is left out. -/
def fieldAnswer (v : Value) : Option (Except Failure Value) :=
  if w.leavesOut v then none else some (convert w inModel v)

theorem writeModel_eq (fs : List (String × Option String × Value)) :
    writeModel w fs = fs.map fun f => (w.fieldKey f.1 f.2.1, fieldAnswer w true f.2.2) := by
  induction fs with
  | nil => rfl
  | cons f fs ih =>
    obtain ⟨name, secondName, v⟩ := f
    rw [writeModel, ih, List.map_cons, fieldAnswer]

/-- Fields in turn are the entries of a mapping in turn. -/
theorem inTurn_eq (fs : List (String × Value)) :
    inTurn (fs.map fun f => (f.1, fieldAnswer w inModel f.2)) =
      writeEntries w inModel (textEntries fs) := by
  induction fs with
  | nil => rfl
  | cons f fs ih =>
    obtain ⟨name, v⟩ := f
    rw [List.map_cons, textEntries_cons, writeEntries, fieldAnswer]
    cases w.leavesOut v with
    | true => exact ih
    | false =>
      simp only [Bool.false_eq_true, if_false]
      rw [inTurn, ih]
      rfl

section

variable {α β : Type}

theorem setField_map (f : α → β) (key : String) (v : α) (fs : List (String × α)) :
    setField key (f v) (fs.map fun e => (e.1, f e.2)) = (setField key v fs).map fun e => (e.1, f e.2) := by
  induction fs with
  | nil => rfl
  | cons e fs ih =>
    obtain ⟨k, old⟩ := e
    rw [List.map_cons, setField, setField, ih]
    split <;> rfl

/-- Which of the fields of a key counts does not depend on what they hold. -/
theorem lastFields_map (f : α → β) (fs : List (String × α)) :
    lastFields (fs.map fun e => (e.1, f e.2)) = (lastFields fs).map fun e => (e.1, f e.2) := by
  induction fs using List.reverseRecOn with
  | nil => rfl
  | append_singleton fs e ih =>
    rw [lastFields] at ih
    simp only [lastFields, List.map_append, List.foldl_append, List.map_cons, List.map_nil, List.foldl_cons,
      List.foldl_nil, ih]
    exact setField_map f e.1 e.2 _

end

theorem put_textEntries (key : String) (v : Value) (fs : List (String × Value)) :
    Entries.put (.text key) v (textEntries fs) = textEntries (setField key v fs) := by
  induction fs with
  | nil => rfl
  | cons f fs ih =>
    obtain ⟨k, old⟩ := f
    have hsame : (Value.text k).same (.text key) = decide (k = key) := by
      rw [Value.same_text, Value.text?, Bool.eq_iff_iff]
      simp
    rw [textEntries_cons, Entries.put, setField, hsame, ih]
    by_cases hk : k = key <;> simp [hk]

/-- The last fields of their keys are those that a mapping keeps. -/
theorem ofPairs_textEntries (fs : List (String × Value)) :
    Entries.ofPairs (textEntries fs) = textEntries (lastFields fs) := by
  induction fs using List.reverseRecOn with
  | nil => rfl
  | append_singleton fs f ih =>
    have hfold : lastFields (fs ++ [f]) = setField f.1 f.2 (lastFields fs) := by
      simp [lastFields]
    rw [hfold, ← put_textEntries, ← ih, textEntries_concat]
    exact Entries.ofPairs_concat _ _

theorem textEntries_injective : Function.Injective textEntries := by
  refine List.map_injective_iff.mpr fun f g h => ?_
  obtain ⟨hname, hvalue⟩ := Prod.mk.inj h
  exact Prod.ext (Value.text.inj hname) hvalue

/-- Fields with keys of their own all count. -/
theorem lastFields_eq_self {fs : List (String × Value)} (h : (fs.map (·.1)).Nodup) : lastFields fs = fs := by
  apply textEntries_injective
  rw [← ofPairs_textEntries]
  exact Entries.ofPairs_eq_self (distinct_textEntries h)

/-! ## Carriers of fields -/

/-- The fields of a mapping keep their keys. -/
theorem keys_of_writeEntries {fs : List (String × Value)} {es : Entries}
    (h : writeEntries w inModel (textEntries fs) = .ok es) :
    (es.map Prod.fst).Sublist ((textEntries fs).map Prod.fst) := by
  have hshown : ∀ e e', writeEntry w inModel e = .ok e' → e'.1 = .text e.1.shown := by
    intro e e' he
    obtain ⟨v, -, rfl⟩ := writeEntry_eq_ok he
    rfl
  have hkeys (fs : List (String × Value)) :
      (textEntries fs).map (fun e => Value.text e.1.shown) = (textEntries fs).map Prod.fst := by
    rw [textEntries, List.map_map, List.map_map]
    rfl
  rw [writeEntries_eq] at h
  rw [map_of_mapM hshown h, ← hkeys]
  exact List.filter_sublist.map _

/-- The fields of a model under their keys. -/
def keyedFields (fs : List (String × Option String × Value)) : List (String × Value) :=
  fs.map fun f => (w.fieldKey f.1 f.2.1, f.2.2)

/-- **A model is written as the mapping of its fields under their keys**, the last field of each. -/
theorem gatheredFields_writeModel (fs : List (String × Option String × Value)) :
    gatheredFields (writeModel w fs) =
      gathered (writeEntries w true (Entries.ofPairs (textEntries (keyedFields w fs)))) := by
  have hanswers : writeModel w fs = (keyedFields w fs).map fun f => (f.1, fieldAnswer w true f.2) := by
    rw [writeModel_eq, keyedFields, List.map_map]
    rfl
  have hdistinct : (textEntries (lastFields (keyedFields w fs))).Distinct := by
    rw [← ofPairs_textEntries]
    exact Entries.distinct_ofPairs _
  rw [gatheredFields, hanswers, lastFields_map, inTurn_eq, ofPairs_textEntries, gathered]
  cases hes : writeEntries w true (textEntries (lastFields (keyedFields w fs))) with
  | error e => rfl
  | ok es =>
    simp only [Except.map, Value.mapOf, Value.document]
    have hes' : es.Distinct := hdistinct.sublist (keys_of_writeEntries w true hes)
    rw [Entries.ofPairs_eq_self hes']

/-- The entries that a carrier of fields is written as, with the mark of a model for their values. -/
def carried? : Value → Option (Bool × Entries)
  | .map kind es => some (inModel && kind != .view, es)
  | .model fs => some (true, Entries.ofPairs (textEntries (keyedFields w fs)))
  | .record fs => some (inModel, textEntries fs)
  | .object fs =>
    if exportsItself fs then none else some (false, textEntries (fs.filter fun f => !isPrivate f.1))
  | .exporter (.map _ es) => some (false, es)
  | _ => none

variable {w inModel}

theorem carried_object {fs : List (String × Value)} (h : exportsItself fs = false) :
    carried? w inModel (.object fs) = some (false, textEntries (fs.filter fun f => !isPrivate f.1)) := by
  simp [carried?, h]

/-- **Every carrier of fields is written as its entries.** -/
theorem convert_of_carried {v : Value} {mark : Bool} {es : Entries}
    (h : carried? w inModel v = some (mark, es)) : convert w inModel v = gathered (writeEntries w mark es) := by
  cases v with
  | map kind es' =>
    obtain ⟨rfl, rfl⟩ := Prod.mk.inj (Option.some.inj h)
    rfl
  | model fs =>
    obtain ⟨rfl, rfl⟩ := Prod.mk.inj (Option.some.inj h)
    exact gatheredFields_writeModel w fs
  | record fs =>
    obtain ⟨rfl, rfl⟩ := Prod.mk.inj (Option.some.inj h)
    rw [convert, writeFields_eq]
  | object fs =>
    cases hexports : exportsItself fs with
    | true => simp [carried?, hexports] at h
    | false =>
      rw [carried_object hexports] at h
      obtain ⟨rfl, rfl⟩ := Prod.mk.inj (Option.some.inj h)
      rw [convert, hexports, writeAttributes_eq, writeFields_eq]
      rfl
  | exporter d =>
    cases d with
    | map kind es' =>
      obtain ⟨rfl, rfl⟩ := Prod.mk.inj (Option.some.inj h)
      rfl
    | _ => simp [carried?] at h
  | _ => simp [carried?] at h

/-- The values of the entries that a carrier is written as are parts of it. -/
theorem mem_parts_of_carried {v : Value} {mark : Bool} {es : Entries}
    (h : carried? w inModel v = some (mark, es)) {e : Value × Value} (he : e ∈ es) : e.2 ∈ v.parts := by
  cases v with
  | map kind es' =>
    obtain ⟨-, rfl⟩ := Prod.mk.inj (Option.some.inj h)
    exact List.mem_map_of_mem he
  | model fs =>
    obtain ⟨-, rfl⟩ := Prod.mk.inj (Option.some.inj h)
    obtain ⟨e', he', hvalue⟩ := (Entries.mem_ofPairs he).2
    rw [← hvalue]
    simp only [textEntries, keyedFields, List.map_map, List.mem_map] at he'
    obtain ⟨f, hf, rfl⟩ := he'
    exact List.mem_map_of_mem (f := fun f => f.2.2) hf
  | record fs =>
    obtain ⟨-, rfl⟩ := Prod.mk.inj (Option.some.inj h)
    obtain ⟨f, hf, rfl⟩ := List.mem_map.mp he
    exact List.mem_map_of_mem (f := fun f => f.2) hf
  | object fs =>
    cases hexports : exportsItself fs with
    | true => simp [carried?, hexports] at h
    | false =>
      rw [carried_object hexports] at h
      obtain ⟨-, rfl⟩ := Prod.mk.inj (Option.some.inj h)
      obtain ⟨f, hf, rfl⟩ := List.mem_map.mp he
      exact List.mem_map_of_mem (f := fun f => f.2) (List.mem_of_mem_filter hf)
  | exporter d =>
    cases d with
    | map kind es' =>
      obtain ⟨-, rfl⟩ := Prod.mk.inj (Option.some.inj h)
      exact List.mem_map_of_mem he
    | _ => simp [carried?] at h
  | _ => simp [carried?] at h

/-- An object that exports itself as no mapping is not converted. -/
theorem convert_object_of_not_carried {fs : List (String × Value)}
    (h : carried? w inModel (.object fs) = none) : convert w inModel (.object fs) = .error .lacksOperation := by
  cases hexports : exportsItself fs with
  | true =>
    rw [convert, hexports]
    rfl
  | false => simp [carried_object hexports] at h

theorem convert_exporter_of_not_carried {d : Value} (h : carried? w inModel (.exporter d) = none) :
    convert w inModel (.exporter d) = .error .lacksOperation := by
  cases d with
  | map kind es => simp [carried?] at h
  | _ => rfl

/-- A carrier of fields is written as it is converted. -/
theorem write_of_carried {v : Value} {mark : Bool} {es : Entries}
    (h : carried? w false v = some (mark, es)) : w.write v = gathered (writeEntries w mark es) := by
  have hconvert := convert_of_carried h
  cases v with
  | map kind es' =>
    obtain ⟨rfl, rfl⟩ := Prod.mk.inj (Option.some.inj h)
    rfl
  | model fs | record fs | object fs => exact hconvert
  | exporter d =>
    cases d with
    | map kind es' => exact hconvert
    | _ => simp [carried?] at h
  | _ => simp [carried?] at h

/-- What is no carrier of fields is written as the empty document, if at all. -/
theorem write_of_not_carried {v d : Value} (h : carried? w false v = none) (hd : w.write v = .ok d) :
    d = .document [] := by
  cases v with
  | map kind es | model fs | record fs => simp [carried?] at h
  | object fs =>
    have herror := convert_object_of_not_carried h
    rw [write, ← convert, herror] at hd
    cases hd
  | exporter source =>
    cases source with
    | map kind es => simp [carried?] at h
    | _ => simp [write] at hd
  | foreign f =>
    obtain ⟨es, hes, rfl⟩ := map_eq_ok.mp hd
    cases f with
    | bare name =>
      obtain rfl := Except.ok.inj hes
      rfl
    | _ => simp [foreign] at hes
  | set fixed vs | binary bs k | member v | intMember n | textMember s => exact (Except.ok.inj hd).symm
  | _ => simp [write] at hd

/-- Whatever is written is a mapping. -/
theorem write_mapping {v d : Value} (h : w.write v = .ok d) : ∃ es, d = .document es ∧ es.Distinct := by
  cases hcarried : carried? w false v with
  | some carried =>
    rw [write_of_carried hcarried] at h
    obtain ⟨es, -, rfl⟩ := map_eq_ok.mp h
    exact ⟨Entries.ofPairs es, rfl, Entries.distinct_ofPairs es⟩
  | none => exact ⟨[], write_of_not_carried hcarried h, .nil⟩

end FileDepot.MetadataWriter
