import FileDepot.Value.Basic

/-!
# Induction over the parts of a value

Contents:

* `Value.parts` — the values that a value is made of, its keys apart;
* `Value.items?` — the items of a list or a tuple;
* `Value.unwrapped` — the value inside a member of an enumeration;
* `Value.induction_parts` — what holds of a value as soon as it holds of its parts holds of every value.
-/

namespace FileDepot.Value

/-- The values that a value is made of: items, members, the values of entries and fields, the value of a
member of an enumeration, and the values of the mapping that an object writes itself as. -/
def parts : Value → List Value
  | .list vs => vs
  | .tuple vs => vs
  | .set _ vs => vs
  | .namedTuple fs => fs.map (·.2)
  | .map _ es => es.map (·.2)
  | .member v => [v]
  | .model fs => fs.map (·.2.2)
  | .record fs => fs.map (·.2)
  | .object fs => fs.map (·.2)
  | .exporter (.map _ es) => es.map (·.2)
  | _ => []

/-- The items of a list or a tuple. -/
def items? : Value → Option (List Value)
  | .list vs => some vs
  | v => v.tupleItems?

/-- The value inside a member of an enumeration, which may be that of a member once more. -/
def unwrapped : Value → Value
  | .member v => v.unwrapped
  | v => v

theorem sizeOf_lt_of_mem_map {α : Type} [SizeOf α] {f : α → Value} (hf : ∀ a, sizeOf (f a) < sizeOf a)
    {v : Value} {xs : List α} (h : v ∈ xs.map f) : sizeOf v < sizeOf xs := by
  obtain ⟨a, ha, rfl⟩ := List.mem_map.mp h
  exact Nat.lt_trans (hf a) (List.sizeOf_lt_of_mem ha)

theorem sizeOf_lt_of_mem_fields {u : Value} {fs : List (String × Value)} (h : u ∈ fs.map (·.2)) :
    sizeOf u < sizeOf fs := by
  refine sizeOf_lt_of_mem_map (fun f => ?_) h
  obtain ⟨name, v⟩ := f
  simp only [Prod.mk.sizeOf_spec]
  omega

theorem sizeOf_lt_of_mem_values {u : Value} {es : Entries} (h : u ∈ es.map (·.2)) :
    sizeOf u < sizeOf es := by
  refine sizeOf_lt_of_mem_map (fun e => ?_) h
  obtain ⟨k, v⟩ := e
  simp only [Prod.mk.sizeOf_spec]
  omega

theorem sizeOf_lt_of_mem_parts {u v : Value} (h : u ∈ v.parts) : sizeOf u < sizeOf v := by
  cases v with
  | list vs | tuple vs | set fixed vs =>
    have hlt : sizeOf u < sizeOf vs := List.sizeOf_lt_of_mem h
    simp
    omega
  | namedTuple fs | record fs | object fs =>
    have hlt : sizeOf u < sizeOf fs := sizeOf_lt_of_mem_fields h
    simp
    omega
  | map kind es =>
    have hlt : sizeOf u < sizeOf es := sizeOf_lt_of_mem_values h
    simp
    omega
  | model fs =>
    have hlt : sizeOf u < sizeOf fs := by
      refine sizeOf_lt_of_mem_map (fun f => ?_) h
      obtain ⟨name, secondName, v⟩ := f
      simp
      omega
    simp
    omega
  | member v =>
    obtain rfl := List.mem_singleton.mp h
    simp
  | exporter d =>
    cases d with
    | map kind es =>
      have hlt : sizeOf u < sizeOf es := sizeOf_lt_of_mem_values h
      simp
      omega
    | _ => simp [parts] at h
  | _ => simp [parts] at h

/-- **What holds of a value as soon as it holds of its parts holds of every value.** -/
@[elab_as_elim]
theorem induction_parts {motive : Value → Prop} (parts : ∀ v, (∀ u ∈ v.parts, motive u) → motive v)
    (v : Value) : motive v :=
  parts v fun u _ => induction_parts parts u
termination_by sizeOf v
decreasing_by exact sizeOf_lt_of_mem_parts ‹_›

end FileDepot.Value
