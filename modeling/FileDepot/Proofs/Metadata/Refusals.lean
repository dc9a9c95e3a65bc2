import FileDepot.Proofs.Metadata.Writing
import FileDepot.Proofs.Value.Within

/-!
# Values without a form

A few kinds of values have no form in a document: they are neither scalars nor collections, and they have no
attributes that could be written. A mapping that is made of scalars, collections, members of enumerations and such
values is refused for the first of these that is among them, at any depth. Otherwise only a key can stop it: a key is
written as it is shown, which a whole number with too many digits cannot be.

Contents:

* `Value.isFormless`, `Value.Composed` — the values without a form, and what is made of them and of plain values;
* `Value.refusal?` — the failure for the first value without a form;
* `MetadataWriter.HasLongKey` — a key that is to be written is too long;
* `MetadataWriter.Ends`, `MetadataWriter.ends_convert` — what a value is refused for;
* `MetadataWriter.write_refused_iff` — what a mapping is refused for.
-/

namespace FileDepot

namespace Value

/-! ## Values without a form -/

/-- The value has no form in a document. An object has one, even if it has no attributes at all; so has a class only
if it is taken for an object that exports itself. -/
def isFormless : Value → Bool
  | .foreign (.bare _) => false
  | .foreign (.classItself _ _ exports) => !exports
  | .foreign _ => true
  | _ => false

/-- The value is no typed object: no model, no record, no object and nothing that exports itself. Decimals do not
count either, since they have a form only as far as they fit into a stored one. -/
def isUntyped : Value → Bool
  | .decimal _ | .model _ | .record _ | .object _ | .exporter _ | .foreign (.bare _) => false
  | .foreign (.classItself _ _ exports) => !exports
  | _ => true

/-- The value is made of scalars, collections, members of enumerations and values without a form. What the keys of
its mappings are does not matter, since only their texts are written. -/
def Composed (v : Value) : Prop :=
  ∀ u : Value, u.Within v → u.isUntyped = true

theorem Composed.part {u v : Value} (h : v.Composed) (hu : u ∈ v.parts) : u.Composed :=
  fun x hx => h x (.part hu hx)

/-- The failure for the first value without a form that is come across. -/
def refusal? (v : Value) : Option Failure :=
  (v.depthFirst.find? isFormless).map fun u => .unconvertible u.typeName

theorem refusal?_of_formless {v : Value} (h : v.isFormless = true) : v.refusal? = some (.unconvertible v.typeName) := by
  rw [refusal?, find?_depthFirst_of_self h]
  rfl

/-- A value that has a form is refused for the first of its parts that is refused. -/
theorem refusal?_of_parts {v : Value} (h : v.isFormless = false) : v.refusal? = v.parts.findSome? refusal? := by
  rw [refusal?, find?_depthFirst h, List.map_findSome?]
  rfl

theorem refusal?_of_leaf {v : Value} (h : v.isFormless = false) (hparts : v.parts = []) : v.refusal? = none := by
  rw [refusal?_of_parts h, hparts]
  rfl

theorem refusal?_eq_none_iff {v : Value} :
    v.refusal? = none ↔ ¬ ∃ u : Value, u.Within v ∧ u.isFormless = true := by
  rw [refusal?, Option.map_eq_none_iff, List.find?_eq_none]
  simp [mem_depthFirst]

end Value

namespace MetadataWriter

variable (w : MetadataWriter)

/-! ## Long keys -/

/-- A mapping in the value, at some depth, has an entry whose key is too long to be written. The keys of entries that
are left out are not written. -/
def HasLongKey (v : Value) : Prop :=
  ∃ kind es, (Value.map kind es).Within v ∧ ∃ e ∈ es, w.leavesOut e.2 = false ∧ e.1.showable = false

/-- A long key is one of the mapping itself, or of one of its values. -/
theorem hasLongKey_map {kind : MapKind} {es : Entries} :
    w.HasLongKey (.map kind es) ↔
      ∃ e ∈ es, (w.leavesOut e.2 = false ∧ e.1.showable = false) ∨ w.HasLongKey e.2 := by
  constructor
  · rintro ⟨kind', gs, hwithin, g, hg, hlong⟩
    cases hwithin with
    | here => exact ⟨g, hg, .inl hlong⟩
    | part hu hwithin =>
      obtain ⟨e, he, rfl⟩ := List.mem_map.mp hu
      exact ⟨e, he, .inr ⟨kind', gs, hwithin, g, hg, hlong⟩⟩
  · rintro ⟨e, he, hlong | ⟨kind', gs, hwithin, hlong⟩⟩
    · exact ⟨kind, es, .here, e, he, hlong⟩
    · exact ⟨kind', gs, .part (List.mem_map_of_mem he) hwithin, hlong⟩

/-- What is no mapping has only the long keys of its parts. -/
theorem hasLongKey_of_parts {v : Value} (h : v.entriesOf? = none) :
    w.HasLongKey v ↔ ∃ u ∈ v.parts, w.HasLongKey u := by
  constructor
  · rintro ⟨kind, es, hwithin, hlong⟩
    cases hwithin with
    | here => cases h
    | part hu hwithin => exact ⟨_, hu, kind, es, hwithin, hlong⟩
  · rintro ⟨u, hu, kind, es, hwithin, hlong⟩
    exact ⟨kind, es, .part hu hwithin, hlong⟩

/-- What is left out is null. -/
theorem isNull_of_leavesOut {v : Value} (h : w.leavesOut v = true) : v = .null := by
  rw [leavesOut, Bool.and_eq_true] at h
  cases v with
  | null => rfl
  | _ => cases h.2

/-! ## How steps end -/

variable {α β γ : Type}

/-- A step fails for `refusal?`, or for a key that is too long, which is possible only where `long` holds; it does not
fail where there is neither. -/
def Ends (refusal? : Option Failure) (long : Prop) : Except Failure α → Prop
  | .ok _ => refusal? = none ∧ ¬ long
  | .error f => refusal? = some f ∨ (f = Value.longNumber ∧ long)

namespace Ends

variable {r r' : Option Failure} {long long' : Prop}

theorem map {x : Except Failure α} (h : Ends r long x) (f : α → β) : Ends r long (x.map f) := by
  cases x <;> exact h

/-- Of two steps the second one is reached only if the first does not fail. -/
theorem both {x : Except Failure α} {y : Except Failure β} (hx : Ends r long x) (hy : Ends r' long' y)
    (f : α → β → γ) : Ends (r.or r') (long ∨ long') (x >>= fun a => y >>= fun b => .ok (f a b)) := by
  cases x with
  | error e =>
    refine hx.imp (fun hr => ?_) fun ⟨he, hlong⟩ => ⟨he, .inl hlong⟩
    rw [hr, Option.some_or]
  | ok a =>
    obtain ⟨rfl, hnot⟩ := hx
    rw [Option.none_or]
    cases y with
    | error e => exact hy.imp_right fun ⟨he, hlong⟩ => ⟨he, .inr hlong⟩
    | ok b => exact ⟨hy.1, not_or.mpr ⟨hnot, hy.2⟩⟩

/-- A step for every item fails for the first of them that is refused. -/
theorem mapM {f : α → Except Failure β} {refusal? : α → Option Failure} {long : α → Prop} {xs : List α}
    (h : ∀ x ∈ xs, Ends (refusal? x) (long x) (f x)) :
    Ends (xs.findSome? refusal?) (∃ x ∈ xs, long x) (xs.mapM f) := by
  induction xs with
  | nil => exact ⟨rfl, by simp⟩
  | cons x xs ih =>
    obtain ⟨hx, hxs⟩ := List.forall_mem_cons.mp h
    have hfirst : (x :: xs).findSome? refusal? = (refusal? x).or (xs.findSome? refusal?) := by
      rw [List.findSome?_cons]
      cases refusal? x <;> rfl
    have hlong : (∃ y ∈ x :: xs, long y) ↔ long x ∨ ∃ y ∈ xs, long y := by simp
    rw [hfirst, propext hlong, List.mapM_cons]
    exact hx.both (ih hxs) List.cons

theorem printed (key : Value) : Ends none (key.showable = false) key.printed := by
  unfold Value.printed
  split
  next h => exact ⟨rfl, by simp [h]⟩
  next h => exact .inr ⟨rfl, by simpa using h⟩

end Ends

/-! ## Conversion -/

/-- An entry that is written fails for its key, or as its value does. -/
theorem ends_writeEntry {e : Value × Value} (h : Ends e.2.refusal? (w.HasLongKey e.2) (convert w false e.2)) :
    Ends e.2.refusal? (e.1.showable = false ∨ w.HasLongKey e.2) (writeEntry w false e) := by
  have hboth := (Ends.printed e.1).both h fun key v => (Value.text key, v)
  rwa [Option.none_or] at hboth

/-- The document of a mapping fails as the mapping is refused. -/
theorem ends_gathered {kind : MapKind} {es : Entries}
    (h : ∀ e ∈ es, Ends e.2.refusal? (w.HasLongKey e.2) (convert w false e.2)) :
    Ends (Value.map kind es).refusal? (w.HasLongKey (.map kind es)) (gathered (writeEntries w false es)) := by
  let written := es.filter fun e => !w.leavesOut e.2
  have hwritten := Ends.mapM fun e (he : e ∈ written) => ends_writeEntry w (h e (List.mem_of_mem_filter he))
  -- entries that are left out are null, and null is neither refused nor has it keys
  have hnull : ∀ e : Value × Value, w.leavesOut e.2 = true → e.2.refusal? = none ∧ ¬ w.HasLongKey e.2 := by
    intro e he
    rw [isNull_of_leavesOut w he, hasLongKey_of_parts w rfl, Value.refusal?_of_leaf rfl rfl]
    simp [Value.parts]
  have hrefusal : (es.filter fun e => !w.leavesOut e.2).findSome? (fun e => e.2.refusal?) =
      (Value.map kind es).refusal? := by
    rw [Value.refusal?_of_parts rfl, Value.parts, List.findSome?_map]
    clear h hwritten
    induction es with
    | nil => rfl
    | cons e es ih =>
      rw [List.filter_cons, List.findSome?_cons, ← ih]
      cases hleft : w.leavesOut e.2 with
      | true => simp [hnull e hleft]
      | false => simp [List.findSome?_cons]
  have hlong : (∃ e ∈ es.filter fun e => !w.leavesOut e.2, e.1.showable = false ∨ w.HasLongKey e.2) ↔
      w.HasLongKey (.map kind es) := by
    rw [hasLongKey_map]
    refine exists_congr fun e => ?_
    rw [List.mem_filter, and_assoc]
    refine and_congr_right fun _ => ?_
    cases hleft : w.leavesOut e.2 with
    | true => simp [hnull e hleft]
    | false => simp
  rw [writeEntries_eq, ← hrefusal, ← propext hlong]
  exact hwritten.map _

/-- **A value is refused for the first value without a form in it, or for a key that is too long.** -/
theorem ends_convert {v : Value} (h : v.Composed) :
    Ends v.refusal? (w.HasLongKey v) (convert w false v) := by
  induction v using Value.induction_parts with
  | parts v ih =>
    have hparts : ∀ u ∈ v.parts, Ends u.refusal? (w.HasLongKey u) (convert w false u) :=
      fun u hu => ih u hu (h.part hu)
    have hself : v.isUntyped = true := h v .here
    have hitems (hv : v.isFormless = false) (hmap : v.entriesOf? = none) :
        Ends v.refusal? (w.HasLongKey v) (v.parts.mapM (convert w false)) := by
      rw [Value.refusal?_of_parts hv, propext (hasLongKey_of_parts w hmap)]
      exact Ends.mapM hparts
    have hformless (hv : v.isFormless = true) :
        Ends v.refusal? (w.HasLongKey v) (.error (.unconvertible v.typeName) : Except Failure Value) :=
      .inl (Value.refusal?_of_formless hv)
    have hleaf (hv : v.isFormless = false) (hmap : v.entriesOf? = none) (hnone : v.parts = []) (d : Value) :
        Ends v.refusal? (w.HasLongKey v) (.ok d : Except Failure Value) := by
      rw [Value.refusal?_of_leaf hv hnone, propext (hasLongKey_of_parts w hmap), hnone]
      exact ⟨rfl, by simp⟩
    cases v with
    | list vs | tuple vs | set fixed vs =>
      rw [convert, convertItems_eq]
      exact (hitems rfl rfl).map _
    | namedTuple fs =>
      rw [convert, convertPlaces_eq, convertItems_eq]
      exact (hitems rfl rfl).map _
    | map kind es =>
      rw [convert]
      exact ends_gathered w fun e he => hparts e.2 (List.mem_map_of_mem he)
    | member u =>
      have hu := hparts u (List.mem_singleton_self u)
      rw [convert, propext (hasLongKey_of_parts w rfl), Value.refusal?_of_parts rfl]
      simpa [Value.parts] using hu
    | foreign f =>
      cases f with
      | bare name => cases hself
      | classItself name metatype exports =>
        cases exports with
        | true => cases hself
        | false => exact hformless rfl
      | _ => exact hformless rfl
    | decimal d | model fs | record fs | object fs | exporter d => cases hself
    | _ => exact hleaf rfl rfl rfl _

/-- **A mapping is refused exactly if a value without a form is in it or a key of it is too long**, at any depth, also
inside members of enumerations. It is refused for the first value without a form, by the name of its kind, unless it is
for such a key; what else the keys are does not matter. -/
theorem write_refused_iff {kind : MapKind} {es : Entries} (h : (Value.map kind es).Composed) :
    ((∃ f, w.write (.map kind es) = .error f) ↔
      (∃ u : Value, u.Within (.map kind es) ∧ u.isFormless = true) ∨ w.HasLongKey (.map kind es)) ∧
      ∀ f, w.write (.map kind es) = .error f →
        (∃ u, (Value.map kind es).depthFirst.find? Value.isFormless = some u ∧ f = .unconvertible u.typeName ∧
          f.text? = some s!"Cannot convert {u.typeName} to a metadata document") ∨
        (f = Value.longNumber ∧ w.HasLongKey (.map kind es)) := by
  have hends : Ends (Value.map kind es).refusal? (w.HasLongKey (.map kind es)) (w.write (.map kind es)) :=
    ends_gathered w fun e he => ends_convert w (h.part (List.mem_map_of_mem he))
  have hfirst : ∀ f, (Value.map kind es).refusal? = some f →
      ∃ u, (Value.map kind es).depthFirst.find? Value.isFormless = some u ∧ f = .unconvertible u.typeName := by
    intro f hf
    obtain ⟨u, hu, rfl⟩ := Option.map_eq_some_iff.mp hf
    exact ⟨u, hu, rfl⟩
  cases hwrite : w.write (.map kind es) with
  | ok d =>
    rw [hwrite] at hends
    obtain ⟨hnone, hlong⟩ := hends
    refine ⟨iff_of_false (by simp) (not_or.mpr ⟨Value.refusal?_eq_none_iff.mp hnone, hlong⟩), ?_⟩
    simp
  | error f =>
    rw [hwrite] at hends
    refine ⟨iff_of_true ⟨f, rfl⟩ ?_, ?_⟩
    · refine hends.imp (fun hf => ?_) fun hkey => hkey.2
      by_contra hnone
      rw [Value.refusal?_eq_none_iff.mpr hnone] at hf
      cases hf
    · rintro f' hf'
      obtain rfl := Except.error.inj hf'
      refine hends.imp_left fun hf => ?_
      obtain ⟨u, hu, rfl⟩ := hfirst f hf
      exact ⟨u, hu, rfl, rfl⟩

/-- A row of numbers in a set in a member of an enumeration comes before the object in the last entry, and is what
the mapping is refused for. -/
theorem write_refused_for_row :
    let row : Value := .foreign (.row "range" [0, 1])
    let es : Entries := [(.text "a", .null),
      (.int 2, .tuple [.member (.list [.set true [.int 1, row]]), .date ⟨2024, 5, 1⟩]),
      (.text "c", .foreign (.sealed "object"))]
    let w : MetadataWriter := {}
    (Value.map .ordered es).Composed ∧ w.write (.map .ordered es) = .error (.unconvertible "range") ∧
      ((∃ u : Value, u.Within (.map .ordered es) ∧ u.isFormless = true) ∨ w.HasLongKey (.map .ordered es)) := by
  intro row es w
  have hcomposed : (Value.map .ordered es).Composed := by
    intro u hu
    rw [← Value.mem_depthFirst] at hu
    simp [Value.depthFirst_eq, Value.parts, es, row] at hu
    rcases hu with rfl | rfl | rfl | rfl | rfl | rfl | rfl | rfl | rfl | rfl <;> rfl
  have hwrite : w.write (.map .ordered es) = .error (.unconvertible "range") := rfl
  exact ⟨hcomposed, hwrite, (write_refused_iff w hcomposed).1.mp ⟨_, hwrite⟩⟩

/-- A key without a form is written as it is shown. A number with more digits than are written cannot be, and a mapping
is refused for it although no value without a form is in it. -/
theorem write_refused_for_key :
    let long : Value := .int (Value.firstBeyond Text.digitLimit)
    let w : MetadataWriter := {}
    w.write (.document [(.foreign (.sealed "ellipsis"), .int 1)]) = .ok (.document [(.text "Ellipsis", .int 1)]) ∧
      w.write (.document [(long, .int 1)]) = .error Value.longNumber ∧
      ¬ ∃ u : Value, u.Within (.document [(long, .int 1)]) ∧ u.isFormless = true := by
  intro long w
  have hlong : long.printed = .error Value.longNumber :=
    Value.printed_longInt (Nat.le_of_eq (Int.natAbs_natCast _).symm)
  refine ⟨rfl, ?_, ?_⟩
  · rw [Value.document, write, writeEntries, hlong]
    rfl
  · simp [← Value.mem_depthFirst, Value.depthFirst_eq, Value.document, Value.parts, Value.isFormless]

end MetadataWriter

end FileDepot
