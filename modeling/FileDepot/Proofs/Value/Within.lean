import FileDepot.Proofs.Value.Parts
import FileDepot.Proofs.Value.Stored

/-!
# What stands inside a value

Contents:

* `Value.Within` — a value that is another one or stands inside it, its keys apart;
* `Value.within_iff_parts` — a pattern stands inside what is none if it stands inside a part;
* `Value.depthFirst`, `Value.mem_depthFirst` — what stands inside a value, in the order in which it is come
  across;
* `Value.find?_depthFirst` — the first of its kind.
-/

namespace FileDepot.Value

/-- The value is the other one, or stands inside it at some depth. The keys of mappings are not looked at. -/
inductive Within (x : Value) : Value → Prop
  | here : Within x x
  | part {u v : Value} (hu : u ∈ v.parts) (h : Within x u) : Within x v

variable {x : Value}

/-- A pattern stands inside what is no pattern exactly if it stands inside one of its parts. -/
theorem within_iff_parts {v : Value} (hx : x.isPattern = true) (hv : v.isPattern = false) :
    x.Within v ↔ ∃ u ∈ v.parts, x.Within u := by
  constructor
  · intro h
    cases h with
    | here => simp [hx] at hv
    | part hu h => exact ⟨_, hu, h⟩
  · rintro ⟨u, hu, h⟩
    exact .part hu h

theorem within_list {vs : List Value} (hx : x.isPattern = true) :
    x.Within (.list vs) ↔ ∃ u ∈ vs, x.Within u :=
  within_iff_parts hx rfl

theorem within_document {es : Entries} (hx : x.isPattern = true) :
    x.Within (.document es) ↔ ∃ e ∈ es, x.Within e.2 := by
  show x.Within (.map .plain es) ↔ _
  rw [within_iff_parts hx rfl, parts]
  simp only [List.mem_map, exists_exists_and_eq_and]

/-- What has no parts has nothing inside but itself. -/
theorem within_iff_eq {v : Value} (hv : v.parts = []) : x.Within v ↔ v = x := by
  constructor
  · intro h
    cases h with
    | here => rfl
    | part hu => simp [hv] at hu
  · rintro rfl
    exact .here

/-! ## Depth first -/

/-- The values inside a value, itself in front: what is in its first part comes before its second one. -/
def depthFirst (v : Value) : List Value :=
  v :: v.parts.attach.flatMap fun ⟨u, _⟩ => depthFirst u
termination_by sizeOf v
decreasing_by exact sizeOf_lt_of_mem_parts ‹_›

theorem depthFirst_eq (v : Value) : v.depthFirst = v :: v.parts.flatMap depthFirst := by
  rw [depthFirst]
  simp

/-- What is come across is what stands inside. -/
theorem mem_depthFirst {v : Value} : x ∈ v.depthFirst ↔ x.Within v := by
  induction v using induction_parts with
  | parts v ih =>
    rw [depthFirst_eq, List.mem_cons, List.mem_flatMap]
    constructor
    · rintro (rfl | ⟨u, hu, hx⟩)
      · exact .here
      · exact .part hu ((ih u hu).mp hx)
    · intro h
      cases h with
      | here => exact .inl rfl
      | part hu h => exact .inr ⟨_, hu, (ih _ hu).mpr h⟩

/-- The first value of a kind inside one that is not of the kind is the first one inside its parts. -/
theorem find?_depthFirst {p : Value → Bool} {v : Value} (hv : p v = false) :
    v.depthFirst.find? p = v.parts.findSome? fun u => u.depthFirst.find? p := by
  rw [depthFirst_eq, List.find?_cons, hv, List.find?_flatMap]

/-- The value itself is come across first. -/
theorem find?_depthFirst_of_self {p : Value → Bool} {v : Value} (hv : p v = true) :
    v.depthFirst.find? p = some v := by
  rw [depthFirst_eq, List.find?_cons, hv]

end FileDepot.Value
