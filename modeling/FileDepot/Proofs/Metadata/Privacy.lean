import FileDepot.Proofs.Metadata.Writing

/-!
# Private attributes

The attributes of an object whose names start with an underscore are its own matter. Two sources that differ in such
attributes alone, at any depth and in any carrier, have the same document or are refused for the same reason.

Contents:

* `Value.publicPart` — a value without the private attributes of the objects in it;
* `Value.shown_publicPart`, `Value.printed_publicPart` — it shows as the value itself;
* `MetadataWriter.convert_publicPart` — it is converted as the value itself;
* `MetadataWriter.write_of_samePublic` — sources with the same public part are written alike.
-/

namespace FileDepot

namespace Value

open MetadataWriter (isPrivate)

/-! ## The public part -/

mutual

/-- The value without the private attributes of the objects in it, at any depth, also in the keys of mappings. -/
def publicPart : Value → Value
  | .list vs => .list (publicItems vs)
  | .tuple vs => .tuple (publicItems vs)
  | .namedTuple fs => .namedTuple (publicFields fs)
  | .set fixed vs => .set fixed (publicItems vs)
  | .map kind es => .map kind (publicEntries es)
  | .member v => .member (publicPart v)
  | .model fs => .model (publicModel fs)
  | .record fs => .record (publicFields fs)
  | .object fs => .object (publicAttributes fs)
  | .exporter d => .exporter (publicPart d)
  | v => v
termination_by structural v => v

/-- The public parts of items. -/
def publicItems : List Value → List Value
  | [] => []
  | v :: vs => publicPart v :: publicItems vs
termination_by structural vs => vs

/-- The entries with the public parts of their keys and values. -/
def publicEntries : List (Value × Value) → Entries
  | [] => []
  | (k, v) :: es => (publicPart k, publicPart v) :: publicEntries es
termination_by structural es => es

/-- The fields with the public parts of their values. All fields are public, whatever their names are. -/
def publicFields : List (String × Value) → List (String × Value)
  | [] => []
  | (name, v) :: fs => (name, publicPart v) :: publicFields fs
termination_by structural fs => fs

/-- The fields of a model with the public parts of their values. -/
def publicModel : List (String × Option String × Value) → List (String × Option String × Value)
  | [] => []
  | (name, secondName, v) :: fs => (name, secondName, publicPart v) :: publicModel fs
termination_by structural fs => fs

/-- The public attributes of an object with the public parts of their values. -/
def publicAttributes : List (String × Value) → List (String × Value)
  | [] => []
  | (name, v) :: fs => if isPrivate name then publicAttributes fs else (name, publicPart v) :: publicAttributes fs
termination_by structural fs => fs

end

theorem publicItems_eq (vs : List Value) : publicItems vs = vs.map publicPart := by
  induction vs with
  | nil => rfl
  | cons v vs ih => rw [publicItems, ih, List.map_cons]

theorem publicEntries_eq (es : Entries) :
    publicEntries es = es.map fun e => (e.1.publicPart, e.2.publicPart) := by
  induction es with
  | nil => rfl
  | cons e es ih =>
    obtain ⟨k, v⟩ := e
    rw [publicEntries, ih, List.map_cons]

theorem publicFields_eq (fs : List (String × Value)) :
    publicFields fs = fs.map fun f => (f.1, f.2.publicPart) := by
  induction fs with
  | nil => rfl
  | cons f fs ih =>
    obtain ⟨name, v⟩ := f
    rw [publicFields, ih, List.map_cons]

theorem publicModel_eq (fs : List (String × Option String × Value)) :
    publicModel fs = fs.map fun f => (f.1, f.2.1, f.2.2.publicPart) := by
  induction fs with
  | nil => rfl
  | cons f fs ih =>
    obtain ⟨name, secondName, v⟩ := f
    rw [publicModel, ih, List.map_cons]

theorem publicAttributes_eq (fs : List (String × Value)) :
    publicAttributes fs = publicFields (fs.filter fun f => !isPrivate f.1) := by
  induction fs with
  | nil => rfl
  | cons f fs ih =>
    obtain ⟨name, v⟩ := f
    rw [publicAttributes, ih, List.filter_cons]
    by_cases hname : isPrivate name = true
    · simp [hname]
    · rw [if_neg hname, if_pos (by simpa using hname), publicFields]

/-! ## What is shown of it -/

mutual

/-- What is written down of an object does not tell its attributes. -/
theorem written_publicPart : ∀ v : Value, v.publicPart.written = v.written
  | .list vs => by rw [publicPart, written, written, writtenItems_publicItems vs]
  | .tuple vs => by simp only [publicPart, written, writtenItems_publicItems vs]
  | .namedTuple fs => by rw [publicPart, written, written, writtenFields_publicFields fs]
  | .set fixed vs => by simp only [publicPart, written, writtenItems_publicItems vs]
  | .map kind es => by
    have hempty : (publicEntries es).isEmpty = es.isEmpty := by rw [publicEntries_eq, List.isEmpty_map]
    simp only [publicPart, written, writtenEntries_publicEntries es, writtenPairs_publicEntries es, hempty]
  | .member v => by rw [publicPart, written, written, written_publicPart v]
  | .model fs => by rw [publicPart, written, written, writtenModelFields_publicModel fs]
  | .record fs => by rw [publicPart, written, written, writtenFields_publicFields fs]
  | .object _ | .exporter _ | .null | .bool _ | .int _ | .float _ | .text _ | .bytes _ | .objectId _ | .uuid _
  | .date _ | .dateTime _ | .decimal _ | .storedDecimal _ | .binary _ _ | .pattern _ | .storedRegex _ | .path _
  | .intMember _ | .textMember _ | .foreign _ => rfl

theorem writtenItems_publicItems : ∀ vs : List Value, writtenItems (publicItems vs) = writtenItems vs
  | [] => rfl
  | v :: vs => by rw [publicItems, writtenItems, writtenItems, written_publicPart v, writtenItems_publicItems vs]

theorem writtenEntries_publicEntries :
    ∀ es : List (Value × Value), writtenEntries (publicEntries es) = writtenEntries es
  | [] => rfl
  | (k, v) :: es => by
    rw [publicEntries, writtenEntries, writtenEntries, written_publicPart k, written_publicPart v,
      writtenEntries_publicEntries es]

theorem writtenPairs_publicEntries :
    ∀ es : List (Value × Value), writtenPairs (publicEntries es) = writtenPairs es
  | [] => rfl
  | (k, v) :: es => by
    rw [publicEntries, writtenPairs, writtenPairs, written_publicPart k, written_publicPart v,
      writtenPairs_publicEntries es]

theorem writtenFields_publicFields :
    ∀ fs : List (String × Value), writtenFields (publicFields fs) = writtenFields fs
  | [] => rfl
  | (name, v) :: fs => by
    rw [publicFields, writtenFields, writtenFields, written_publicPart v, writtenFields_publicFields fs]

theorem writtenModelFields_publicModel :
    ∀ fs : List (String × Option String × Value), writtenModelFields (publicModel fs) = writtenModelFields fs
  | [] => rfl
  | (name, secondName, v) :: fs => by
    rw [publicModel, writtenModelFields, writtenModelFields, written_publicPart v, writtenModelFields_publicModel fs]

end

/-- The public part of a value shows as the value itself. -/
theorem shown_publicPart (v : Value) : v.publicPart.shown = v.shown := by
  have hwritten := written_publicPart v
  cases v with
  | model fs =>
    show Text.commaJoin " " (writtenModelFields (publicModel fs)) = _
    rw [writtenModelFields_publicModel]
    rfl
  | map kind es =>
    cases kind with
    | view =>
      show bracketed "\x7b" "\x7d" (writtenEntries (publicEntries es)) = _
      rw [writtenEntries_publicEntries]
      rfl
    | plain | ordered => exact hwritten
  | list vs | tuple vs | namedTuple fs | set fixed vs | record fs | object fs | exporter d => exact hwritten
  | _ => rfl

mutual

/-- No number in a private attribute would be written. -/
theorem writable_publicPart : ∀ v : Value, v.publicPart.writable = v.writable
  | .list vs | .tuple vs | .set _ vs => by rw [publicPart, writable, writable, writableItems_publicItems vs]
  | .namedTuple fs | .record fs => by rw [publicPart, writable, writable, writableFields_publicFields fs]
  | .map kind es => by rw [publicPart, writable, writable, writableEntries_publicEntries es]
  | .member v => by rw [publicPart, writable, writable, writable_publicPart v]
  | .model fs => by rw [publicPart, writable, writable, writableModelFields_publicModel fs]
  | .object _ | .exporter _ | .null | .bool _ | .int _ | .float _ | .text _ | .bytes _ | .objectId _ | .uuid _
  | .date _ | .dateTime _ | .decimal _ | .storedDecimal _ | .binary _ _ | .pattern _ | .storedRegex _ | .path _
  | .intMember _ | .textMember _ | .foreign _ => rfl

theorem writableItems_publicItems : ∀ vs : List Value, writableItems (publicItems vs) = writableItems vs
  | [] => rfl
  | v :: vs => by rw [publicItems, writableItems, writableItems, writable_publicPart v, writableItems_publicItems vs]

theorem writableEntries_publicEntries :
    ∀ es : List (Value × Value), writableEntries (publicEntries es) = writableEntries es
  | [] => rfl
  | (k, v) :: es => by
    rw [publicEntries, writableEntries, writableEntries, writable_publicPart k, writable_publicPart v,
      writableEntries_publicEntries es]

theorem writableFields_publicFields :
    ∀ fs : List (String × Value), writableFields (publicFields fs) = writableFields fs
  | [] => rfl
  | (name, v) :: fs => by
    rw [publicFields, writableFields, writableFields, writable_publicPart v, writableFields_publicFields fs]

theorem writableModelFields_publicModel :
    ∀ fs : List (String × Option String × Value), writableModelFields (publicModel fs) = writableModelFields fs
  | [] => rfl
  | (name, secondName, v) :: fs => by
    rw [publicModel, writableModelFields, writableModelFields, writable_publicPart v,
      writableModelFields_publicModel fs]

end

/-- The public part of a value is printed as the value itself. -/
theorem printed_publicPart (v : Value) : v.publicPart.printed = v.printed := by
  have hshowable : v.publicPart.showable = v.showable := by
    cases v with
    | member u => rfl
    | _ => exact writable_publicPart _
  rw [printed, printed, hshowable, shown_publicPart]

theorem isNull_publicPart (v : Value) : v.publicPart.isNull = v.isNull := by
  cases v <;> rfl

end Value

namespace MetadataWriter

open Value (publicItems publicEntries publicFields publicModel publicAttributes)

variable (w : MetadataWriter)

/-! ## Conversion -/

theorem textEntries_publicFields (fs : List (String × Value)) :
    textEntries (publicFields fs) = publicEntries (textEntries fs) := by
  rw [Value.publicFields_eq, Value.publicEntries_eq, textEntries, textEntries, List.map_map, List.map_map]
  rfl

/-- An object that exports itself does so by a public attribute. -/
theorem exportsItself_publicAttributes (fs : List (String × Value)) :
    exportsItself (publicAttributes fs) = exportsItself fs := by
  have hcallable (v : Value) : isCallable v.publicPart = isCallable v := by cases v <;> rfl
  induction fs with
  | nil => rfl
  | cons f fs ih =>
    obtain ⟨name, v⟩ := f
    rw [Value.publicAttributes]
    by_cases hname : isPrivate name = true
    · -- the attribute by which an object exports itself is public
      have hother : name ≠ "to_dict" := by
        rintro rfl
        exact absurd hname (by decide)
      rw [if_pos hname, ih]
      simp [exportsItself, hother]
    · rw [if_neg hname]
      show (name == "to_dict" && isCallable v.publicPart || exportsItself (publicAttributes fs)) =
        (name == "to_dict" && isCallable v || exportsItself fs)
      rw [hcallable, ih]

/-- The fields of a model keep their keys, and those that count are the same. -/
theorem ofPairs_publicModel (fs : List (String × Option String × Value)) :
    Entries.ofPairs (textEntries (keyedFields w (publicModel fs))) =
      publicEntries (Entries.ofPairs (textEntries (keyedFields w fs))) := by
  have hkeyed : keyedFields w (publicModel fs) = publicFields (keyedFields w fs) := by
    rw [Value.publicModel_eq, Value.publicFields_eq, keyedFields, keyedFields, List.map_map, List.map_map]
    rfl
  rw [hkeyed, Value.publicFields_eq, ofPairs_textEntries, ofPairs_textEntries, lastFields_map,
    ← textEntries_publicFields, Value.publicFields_eq]

/-- The public part of a carrier is written as the public parts of its entries. -/
theorem carried_publicPart (mark : Bool) (v : Value) :
    carried? w mark v.publicPart = (carried? w mark v).map fun carried => (carried.1, publicEntries carried.2) := by
  cases v with
  | map kind es => rfl
  | model fs =>
    show some (true, _) = some (true, _)
    rw [ofPairs_publicModel]
  | record fs =>
    show some (mark, _) = some (mark, _)
    rw [textEntries_publicFields]
  | object fs =>
    have hexports := exportsItself_publicAttributes fs
    have hall : (publicAttributes fs).filter (fun f => !isPrivate f.1) = publicAttributes fs := by
      rw [Value.publicAttributes_eq, Value.publicFields_eq, List.filter_map, List.filter_filter]
      simp
    show carried? w mark (.object (publicAttributes fs)) = _
    cases hfs : exportsItself fs with
    | true =>
      rw [hfs] at hexports
      simp [carried?, hfs, hexports]
    | false =>
      rw [hfs] at hexports
      rw [carried_object hexports, carried_object hfs, hall, Value.publicAttributes_eq, textEntries_publicFields]
      rfl
  | exporter d => cases d <;> rfl
  | _ => rfl

/-- Entries are written alike if their values are. -/
theorem writeEntries_publicEntries {mark : Bool} {es : Entries}
    (h : ∀ e ∈ es, convert w mark e.2.publicPart = convert w mark e.2) :
    writeEntries w mark (publicEntries es) = writeEntries w mark es := by
  induction es with
  | nil => rfl
  | cons e es ih =>
    obtain ⟨k, v⟩ := e
    obtain ⟨hv, hes⟩ := List.forall_mem_cons.mp h
    have hleft : w.leavesOut v.publicPart = w.leavesOut v := by rw [leavesOut, leavesOut, Value.isNull_publicPart]
    rw [Value.publicEntries, writeEntries, writeEntries, hleft, hv, ih hes, Value.printed_publicPart]

/-- **The public part of a value is converted as the value itself.** -/
theorem convert_publicPart (mark : Bool) (v : Value) : convert w mark v.publicPart = convert w mark v := by
  induction v using Value.induction_parts generalizing mark with
  | parts v ih =>
    have hcarriedPart := carried_publicPart w mark v
    cases hcarried : carried? w mark v with
    | some carried =>
      obtain ⟨inner, es⟩ := carried
      rw [hcarried] at hcarriedPart
      rw [convert_of_carried hcarried, convert_of_carried hcarriedPart,
        writeEntries_publicEntries w fun e he => ih e.2 (mem_parts_of_carried hcarried he) inner]
    | none =>
      -- what carries no entries is converted by its parts, if it has any
      rw [hcarried] at hcarriedPart
      have hitems : convertItems w mark (publicItems v.parts) = convertItems w mark v.parts := by
        rw [Value.publicItems_eq, convertItems_eq, convertItems_eq, List.mapM_map]
        exact mapM_congr fun u hu => ih u hu mark
      cases v with
      | list vs | tuple vs | set fixed vs => exact congrArg (fun items => items.map Value.list) hitems
      | namedTuple fs =>
        have hplaces : (publicFields fs).map (·.2) = publicItems (fs.map (·.2)) := by
          rw [Value.publicFields_eq, Value.publicItems_eq, List.map_map, List.map_map]
          rfl
        rw [Value.publicPart, convert, convert, convertPlaces_eq, convertPlaces_eq, hplaces]
        exact congrArg (fun items => items.map Value.list) hitems
      | member u => exact ih u (List.mem_singleton_self u) false
      | object fs =>
        rw [convert_object_of_not_carried hcarried, Value.publicPart, convert_object_of_not_carried hcarriedPart]
      | exporter d =>
        rw [convert_exporter_of_not_carried hcarried, Value.publicPart, convert_exporter_of_not_carried hcarriedPart]
      | map kind es | model fs | record fs => cases hcarried
      | _ => rfl

/-- **The document of a source is that of its public part**, and so is the failure if there is none. -/
theorem write_publicPart (v : Value) : w.write v.publicPart = w.write v := by
  have hcarriedPart := carried_publicPart w false v
  have hconvert := convert_publicPart w false v
  cases hcarried : carried? w false v with
  | some carried =>
    rw [hcarried] at hcarriedPart
    rw [write_of_carried hcarried, write_of_carried hcarriedPart, ← convert_of_carried hcarried,
      ← convert_of_carried hcarriedPart, hconvert]
  | none =>
    cases v with
    | object fs => exact hconvert
    | exporter d =>
      cases d with
      | map kind es => cases hcarried
      | _ => rfl
    | map kind es | model fs | record fs => cases hcarried
    | _ => rfl

/-- **Private attributes never tell in a document.** Sources that differ only in the private attributes of objects, in
which there are and in what they hold, have the same document or are refused for the same reason. -/
theorem write_of_samePublic {v v' : Value} (h : v.publicPart = v'.publicPart) : w.write v = w.write v' := by
  rw [← write_publicPart w v, ← write_publicPart w v', h]

/-- A private attribute without a form, in a list in a model and in a member of an enumeration, is in no document. -/
theorem write_of_samePublic_hidden :
    let source (hidden : List (String × Value)) : Value := .model [("size", some "Size", .int 3),
      ("parts", none, .list [.object (("name", .text "a") :: hidden)]), ("kind", none, .member (.object hidden))]
    let document : Value := .map .plain [(.text "Size", .int 3),
      (.text "parts", .list [.map .plain [(.text "name", .text "a")]]), (.text "kind", .map .plain [])]
    let w : MetadataWriter := {}
    (source [("_seen", .foreign (.sealed "complex"))]).publicPart = (source []).publicPart ∧
      w.write (source [("_seen", .foreign (.sealed "complex"))]) = .ok document := by
  intro source document w
  have hsame : (source [("_seen", .foreign (.sealed "complex"))]).publicPart = (source []).publicPart := rfl
  have hwrite : w.write (source []) = .ok document := rfl
  exact ⟨hsame, (write_of_samePublic w hsame).trans hwrite⟩

end MetadataWriter

end FileDepot
