import FileDepot.Proofs.Metadata.Carriers
import FileDepot.Proofs.Metadata.Normal
import FileDepot.Proofs.Value.Within

/-!
# Null entries of documents

A writer that leaves out null entries looks at the values that it is given. A member of an enumeration is not null,
and only its conversion brings out the value inside it: where that is null, the entry is written, and is null in the
document.

Contents:

* `Value.HasNullEntry` — some mapping in the value has an entry that is null;
* `Value.isNullMember` — what becomes null without being so;
* `MetadataWriter.writtenEntries`, `MetadataWriter.LeavesNull` — the entries that are written, and what they lead to;
* `MetadataWriter.nullsOf_convert` — the null entries of what a value is converted to;
* `MetadataWriter.write_nullEntries` — the null entries of a document.
-/

namespace FileDepot

namespace Value

/-! ## Null entries -/

/-- A mapping in the value, at some depth, has an entry that is null. -/
def HasNullEntry (v : Value) : Prop :=
  ∃ kind es, (Value.map kind es).Within v ∧ ∃ e ∈ es, e.2.isNull = true

/-- A mapping has a null entry of its own, or in one of its values. -/
theorem hasNullEntry_map {kind : MapKind} {es : Entries} :
    (Value.map kind es).HasNullEntry ↔ ∃ e ∈ es, e.2.isNull = true ∨ e.2.HasNullEntry := by
  constructor
  · rintro ⟨kind', gs, hwithin, g, hg, hnull⟩
    cases hwithin with
    | here => exact ⟨g, hg, .inl hnull⟩
    | part hu hwithin =>
      obtain ⟨e, he, rfl⟩ := List.mem_map.mp hu
      exact ⟨e, he, .inr ⟨kind', gs, hwithin, g, hg, hnull⟩⟩
  · rintro ⟨e, he, hnull | ⟨kind', gs, hwithin, hnull⟩⟩
    · exact ⟨kind, es, .here, e, he, hnull⟩
    · exact ⟨kind', gs, .part (List.mem_map_of_mem he) hwithin, hnull⟩

theorem hasNullEntry_list {vs : List Value} : (Value.list vs).HasNullEntry ↔ ∃ v ∈ vs, v.HasNullEntry := by
  constructor
  · rintro ⟨kind, es, hwithin, hnull⟩
    cases hwithin with
    | part hu hwithin => exact ⟨_, hu, kind, es, hwithin, hnull⟩
  · rintro ⟨v, hv, kind, es, hwithin, hnull⟩
    exact ⟨kind, es, .part hv hwithin, hnull⟩

/-- What has no parts has no entries either. -/
theorem not_hasNullEntry {v : Value} (hparts : v.parts = []) : ¬ v.HasNullEntry := by
  rintro ⟨kind, es, hwithin, e, he, -⟩
  obtain rfl := (within_iff_eq hparts).mp hwithin
  simp [List.map_eq_nil_iff.mp hparts] at he

/-! ## What becomes null -/

/-- The value is a member of an enumeration, and null is inside it. -/
def isNullMember : Value → Bool
  | .member v => v.unwrapped.isNull
  | _ => false

/-- Of what is not null only members of enumerations are null inside. -/
theorem isNull_unwrapped {v : Value} (h : v.isNull = false) : v.unwrapped.isNull = v.isNullMember := by
  cases v with
  | null => cases h
  | _ => rfl

end Value

namespace MetadataWriter

variable {w : MetadataWriter}

/-! ## The entries that are written -/

/-- The entries of a carrier that are written, under the names that they get in the document; of a name that repeats the
last value counts. -/
def writtenEntries (w : MetadataWriter) (v : Value) : Entries :=
  match carried? w false v with
  | some (_, es) => Entries.ofPairs ((es.filter fun e => !w.leavesOut e.2).map fun e => (.text e.1.shown, e.2))
  | none => []

/-- A null entry comes out of the value where it is converted: a member of an enumeration with null inside is the value
of an entry, here or further inside. -/
inductive LeavesNull (w : MetadataWriter) : Value → Prop
  | member {v : Value} {e : Value × Value} (he : e ∈ w.writtenEntries v) (hmember : e.2.isNullMember = true) :
    LeavesNull w v
  | entry {v : Value} {e : Value × Value} (he : e ∈ w.writtenEntries v) (h : LeavesNull w e.2) : LeavesNull w v
  | part {v u : Value} (hv : carried? w false v = none) (hu : u ∈ v.parts) (h : LeavesNull w u) : LeavesNull w v

/-- What is no carrier of fields in one place is none in any place. -/
theorem not_carried_mark {mark : Bool} {v : Value} (h : carried? w mark v = none) (mark' : Bool) :
    carried? w mark' v = none := by
  cases hcarried : carried? w mark' v with
  | none => rfl
  | some carried =>
    obtain ⟨inner, hsome⟩ := carried_mark hcarried mark
    rw [h] at hsome
    cases hsome

theorem writtenEntries_of_carried {mark inner : Bool} {v : Value} {es : Entries}
    (h : carried? w mark v = some (inner, es)) :
    w.writtenEntries v =
      Entries.ofPairs ((es.filter fun e => !w.leavesOut e.2).map fun e => (.text e.1.shown, e.2)) := by
  obtain ⟨inner', hcarried⟩ := carried_mark h false
  rw [writtenEntries, hcarried]

theorem writtenEntries_of_not_carried {mark : Bool} {v : Value} (h : carried? w mark v = none) :
    w.writtenEntries v = [] := by
  rw [writtenEntries, not_carried_mark h false]

/-- The values that are written are parts of their carrier. -/
theorem mem_parts_of_written {v : Value} {e : Value × Value} (he : e ∈ w.writtenEntries v) : e.2 ∈ v.parts := by
  cases hcarried : carried? w false v with
  | none =>
    rw [writtenEntries_of_not_carried hcarried] at he
    cases he
  | some carried =>
    rw [writtenEntries_of_carried hcarried] at he
    obtain ⟨g, hg, hvalue⟩ := (Entries.mem_ofPairs he).2
    obtain ⟨f, hf, rfl⟩ := List.mem_map.mp hg
    have hpart : f.2 ∈ v.parts := mem_parts_of_carried hcarried (List.mem_filter.mp hf).1
    exact hvalue ▸ hpart

theorem leavesNull_of_carried {mark : Bool} {v : Value} {carried : Bool × Entries}
    (h : carried? w mark v = some carried) :
    LeavesNull w v ↔ ∃ e ∈ w.writtenEntries v, e.2.isNullMember = true ∨ LeavesNull w e.2 := by
  constructor
  · intro hleaves
    cases hleaves with
    | member he hmember => exact ⟨_, he, .inl hmember⟩
    | entry he hinside => exact ⟨_, he, .inr hinside⟩
    | part hv =>
      rw [not_carried_mark hv mark] at h
      cases h
  · rintro ⟨e, he, hmember | hinside⟩
    · exact .member he hmember
    · exact .entry he hinside

theorem leavesNull_of_not_carried {mark : Bool} {v : Value} (h : carried? w mark v = none) :
    LeavesNull w v ↔ ∃ u ∈ v.parts, LeavesNull w u := by
  constructor
  · intro hleaves
    cases hleaves with
    | member he | entry he =>
      rw [writtenEntries_of_not_carried h] at he
      cases he
    | part _ hu hinside => exact ⟨_, hu, hinside⟩
  · rintro ⟨u, hu, hinside⟩
    exact .part (not_carried_mark h false) hu hinside

/-- A null entry comes out of a member of an enumeration inside the value. -/
theorem LeavesNull.exists_member {v : Value} (h : LeavesNull w v) :
    ∃ u : Value, u.Within v ∧ u.isNullMember = true := by
  induction h with
  | member he hmember => exact ⟨_, .part (mem_parts_of_written he) .here, hmember⟩
  | entry he _ ih =>
    obtain ⟨u, hu, hmember⟩ := ih
    exact ⟨u, .part (mem_parts_of_written he) hu, hmember⟩
  | part _ hpart _ ih =>
    obtain ⟨u, hu, hmember⟩ := ih
    exact ⟨u, .part hpart hu, hmember⟩

/-! ## What values are converted to -/

/-- What the value is converted to is null if null is inside the value, and has the null entries that come out of it. -/
structure NullsOf (w : MetadataWriter) (v d : Value) : Prop where
  isNull : d.isNull = v.unwrapped.isNull
  entries : d.HasNullEntry ↔ LeavesNull w v

/-- The document of entries has a null entry where one of the written values is null inside or leaves one. -/
theorem gathered_nullEntries (hw : w.excludeNull = true) {mark inner : Bool} {v d : Value} {es : Entries}
    (hcarried : carried? w mark v = some (inner, es))
    (hes : ∀ e ∈ es, ∀ d, convert w inner e.2 = .ok d → NullsOf w e.2 d)
    (h : gathered (writeEntries w inner es) = .ok d) :
    d.HasNullEntry ↔ ∃ e ∈ w.writtenEntries v, e.2.isNullMember = true ∨ LeavesNull w e.2 := by
  obtain ⟨gs, hgs, rfl⟩ := map_eq_ok.mp h
  rw [writeEntries_eq] at hgs
  -- an entry that is written is not null, so it becomes null only if it is a member with null inside
  have hkept : ∀ e ∈ es.filter fun e => !w.leavesOut e.2, e.2.isNull = false ∧
      ∀ d, convert w inner e.2 = .ok d → NullsOf w e.2 d := by
    intro e he
    obtain ⟨hmem, hwritten⟩ := List.mem_filter.mp he
    refine ⟨?_, hes e hmem⟩
    simpa [leavesOut, hw] using hwritten
  have hrelated : Entries.Related
      (fun _ v g => (g.isNull = true ∨ g.HasNullEntry) ↔ (v.isNullMember = true ∨ LeavesNull w v))
      ((es.filter fun e => !w.leavesOut e.2).map fun e => (.text e.1.shown, e.2)) gs := by
    refine List.forall₂_map_left_iff.mpr (related_of_mapM (fun e he g hwrite => ?_) hgs)
    obtain ⟨hnull, hconvert⟩ := hkept e he
    obtain ⟨value, hvalue, rfl⟩ := writeEntry_eq_ok hwrite
    have hnulls := hconvert value hvalue
    refine ⟨rfl, or_congr ?_ hnulls.entries⟩
    rw [hnulls.isNull, Value.isNull_unwrapped hnull]
  have hwritten := hrelated.ofPairs fun _ _ _ _ _ hvalue => hvalue
  rw [writtenEntries_of_carried hcarried]
  exact Value.hasNullEntry_map.trans (exists_iff_of_related (hwritten.imp fun e g heg => heg.2))

/-- No carrier of fields has null inside. -/
theorem isNull_of_carried {mark : Bool} {v : Value} {carried : Bool × Entries} (h : carried? w mark v = some carried) :
    v.unwrapped.isNull = false := by
  cases v with
  | map kind es | model fs | record fs | object fs | exporter d => rfl
  | _ => cases h

/-- **The null entries of what a value is converted to come out of members of enumerations.** -/
theorem nullsOf_convert (hw : w.excludeNull = true) (v : Value) (mark : Bool) (d : Value)
    (h : convert w mark v = .ok d) : NullsOf w v d := by
  induction v using Value.induction_parts generalizing mark d with
  | parts v ih =>
    cases convert_eq_ok h with
    | carried hcarried hd =>
      have hentries := gathered_nullEntries hw hcarried
        (fun e he => ih e.2 (mem_parts_of_carried hcarried he) _) hd
      refine ⟨?_, hentries.trans (leavesNull_of_carried hcarried).symm⟩
      obtain ⟨es, -, rfl⟩ := map_eq_ok.mp hd
      exact (isNull_of_carried hcarried).symm
    | items hcarried hinner hnull hds =>
      refine ⟨?_, ?_⟩
      · rw [hinner, hnull]
        rfl
      · rw [Value.hasNullEntry_list, leavesNull_of_not_carried hcarried]
        exact exists_iff_of_related (related_of_mapM (fun u hu d hd => (ih u hu mark d hd).entries) hds)
    | @member u _ hd =>
      -- a member that is converted by itself, and not as the value of an entry, adds nothing to what is inside
      have hinside := ih u (List.mem_singleton_self u) false d hd
      refine ⟨hinside.isNull, hinside.entries.trans ?_⟩
      rw [leavesNull_of_not_carried (show carried? w mark (.member u) = none from rfl)]
      simp [Value.parts]
    | leaf hcarried hinner hparts hd hnull =>
      have hnone : d.parts = [] := by
        rcases hd with hkept | rfl
        · exact Value.parts_of_isKept hkept
        · rfl
      refine ⟨by rw [hnull, hinner], iff_of_false (Value.not_hasNullEntry hnone) ?_⟩
      rw [leavesNull_of_not_carried hcarried, hparts]
      simp

/-! ## Documents -/

/-- **Where null entries are left out, a document has one exactly if a member of an enumeration with null inside is
written.** From a source without such members it has none, at any depth. -/
theorem write_nullEntries (hw : w.excludeNull = true) {source d : Value} (h : w.write source = .ok d) :
    (d.HasNullEntry ↔ ∃ e ∈ w.writtenEntries source, e.2.isNullMember = true ∨ LeavesNull w e.2) ∧
      ((∀ u : Value, u.Within source → u.isNullMember = false) → ¬ d.HasNullEntry) := by
  have hentries : d.HasNullEntry ↔ ∃ e ∈ w.writtenEntries source, e.2.isNullMember = true ∨ LeavesNull w e.2 := by
    cases hcarried : carried? w false source with
    | some carried =>
      rw [write_of_carried hcarried] at h
      exact gathered_nullEntries hw hcarried (fun e _ => nullsOf_convert hw e.2 carried.1) h
    | none =>
      obtain rfl := write_of_not_carried hcarried h
      rw [writtenEntries_of_not_carried hcarried]
      exact iff_of_false (Value.not_hasNullEntry rfl) (by simp)
  refine ⟨hentries, fun hnone hnull => ?_⟩
  have hleaves : LeavesNull w source := by
    obtain ⟨e, he, hmember | hinside⟩ := hentries.mp hnull
    · exact .member he hmember
    · exact .entry he hinside
  obtain ⟨u, hu, hmember⟩ := hleaves.exists_member
  rw [hnone u hu] at hmember
  cases hmember

/-- A null entry is left out, at the top and inside a list, and a member of an enumeration with null inside is written
as one. -/
theorem write_nullEntries_of_member :
    let w : MetadataWriter := {}
    let source : Value := .document [(.text "a", .null),
      (.text "b", .list [.record [("c", .null), ("d", .member .null)]])]
    let d : Value := .document [(.text "b", .list [.document [(.text "d", .null)]])]
    w.excludeNull = true ∧ w.write source = .ok d ∧ d.HasNullEntry := by
  intro w source d
  have hwrite : w.write source = .ok d := rfl
  have hrecord : LeavesNull w (.record [("c", .null), ("d", .member .null)]) :=
    .member (e := (.text "d", .member .null)) List.mem_cons_self rfl
  have hlist : LeavesNull w (.list [.record [("c", .null), ("d", .member .null)]]) :=
    .part rfl List.mem_cons_self hrecord
  refine ⟨rfl, hwrite, (write_nullEntries rfl hwrite).1.mpr ?_⟩
  exact ⟨(.text "b", _), List.mem_cons_self, .inr hlist⟩

end MetadataWriter

end FileDepot
