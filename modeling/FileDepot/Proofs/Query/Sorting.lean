import FileDepot.Proofs.Metadata.Writing
import FileDepot.Proofs.Query.Building
import FileDepot.Proofs.Value.Numbers
import FileDepot.Query.Native

/-!
# Sort keys of a query

A query keeps the sort keys in the order of the calls that have added them, each with its direction. For a lookup
they are put into a mapping, where a key keeps the place of its first call and takes the direction of its last, and
each direction is read as the whole number that it equals.

Contents:

* `Query.sortField`, `Query.descends`, `Query.toWhole_of_isDirection` — one key with its direction;
* `Query.sortBy_eq_ok`, `Query.sortCalls_eq_ok` — keys added one by one;
* `Entries.named`, `Entries.enteredAs_named` — keys by their names in a mapping made of pairs;
* `Query.SortsBy`, `Query.sort_of_entries`, `Query.sort_of_calls` — from the calls to the fields of a lookup.
-/

namespace FileDepot

/-! ## One key -/

namespace Query

/-- The field that a sort key names: `id` is another name of `_id`. -/
def sortField (name : String) : String :=
  if name = "id" then "_id" else name

/-- The direction is the descending one. -/
def descends (direction : Value) : Bool :=
  (Value.int (-1)).same direction

/-- The fields and directions of sort keys. -/
def sortKeys (calls : List (String × Value)) : List (String × Bool) :=
  calls.map fun c => (sortField c.1, descends c.2)

/-- Sort keys added one by one. -/
def sortCalls (q : Query) (calls : List (String × Value)) : Except Failure Query :=
  calls.foldlM (fun q c => q.sortBy (.text c.1) c.2) q

/-- A key with a name names a field that has one. -/
theorem text?_fieldName {key : Value} {name : String} (h : key.text? = some name) :
    (Native.fieldName key).text? = some (sortField name) := by
  have hid : Native.isIdKey key = (decide (name = "id") || decide (name = "_id")) := by
    unfold Native.isIdKey
    rw [h]
    rfl
  unfold Native.fieldName sortField
  rw [hid]
  by_cases hshort : name = "id"
  · simp [hshort, Value.text?]
  · by_cases hunder : name = "_id"
    · simp [hunder, Value.text?]
    · simp [hshort, hunder, h]

theorem fieldName_text (name : String) : Native.fieldName (.text name) = .text (sortField name) := by
  by_cases hid : name = "id"
  · simp [Native.fieldName, Native.isIdKey, Value.text?, sortField, hid]
  · by_cases hunder : name = "_id"
    · simp [Native.fieldName, Native.isIdKey, Value.text?, sortField, hunder]
    · simp [Native.fieldName, Native.isIdKey, Value.text?, sortField, hid, hunder]

theorem same_of_equals {n : Int} {v : Value} (h : (Value.int n).equals v = .ok true) :
    (Value.int n).same v = true := by
  unfold Value.equals at h
  split at h
  · cases h
  · exact Except.ok.inj h

/-- A direction equals one of two numbers. -/
theorem same_of_isDirection {v : Value} (h : isDirection v = .ok true) :
    (Value.int (if descends v then -1 else 1)).same v = true := by
  unfold isDirection at h
  obtain ⟨ascends, hascends, h⟩ := bind_eq_ok.mp h
  by_cases hdescends : descends v = true
  · rw [if_pos hdescends]
    exact hdescends
  · rw [if_neg hdescends]
    cases ascends with
    | true => exact same_of_equals hascends
    | false => exact absurd (same_of_equals h) hdescends

/-- A direction is read as the number that it equals. -/
theorem toWhole_of_isDirection {v : Value} (h : isDirection v = .ok true) :
    v.toWhole = .ok (if descends v then -1 else 1) :=
  Value.toWhole_of_same (same_of_isDirection h)

/-! ## Keys added one by one -/

/-- A sort key is added behind the others if its direction is one. -/
theorem sortBy_eq_ok {q q' : Query} {key direction : Value} (h : q.sortBy key direction = .ok q') :
    isDirection direction = .ok true ∧ q' = { q with sort := q.sort ++ [(key, direction)] } := by
  unfold sortBy at h
  obtain ⟨answer, hanswer, h⟩ := bind_eq_ok.mp h
  cases answer with
  | false => cases h
  | true => exact ⟨hanswer, (Except.ok.inj h).symm⟩

theorem sortCalls_eq_ok {q q' : Query} {calls : List (String × Value)} (h : q.sortCalls calls = .ok q') :
    q' = { q with sort := q.sort ++ calls.map fun c => (.text c.1, c.2) } ∧
      ∀ c ∈ calls, isDirection c.2 = .ok true := by
  rw [sortCalls] at h
  induction calls generalizing q with
  | nil =>
    obtain rfl := Except.ok.inj h
    simp
  | cons c calls ih =>
    rw [List.foldlM_cons] at h
    obtain ⟨q₁, hfirst, h⟩ := bind_eq_ok.mp h
    obtain ⟨hdirection, rfl⟩ := sortBy_eq_ok hfirst
    obtain ⟨rfl, hcalls⟩ := ih h
    exact ⟨by simp, List.forall_mem_cons.mpr ⟨hdirection, hcalls⟩⟩

end Query

/-! ## Keys in a mapping -/

namespace Entries

/-- The entries whose keys have names, by their names. -/
def named (es : Entries) : List (String × Value) :=
  es.filterMap fun e => e.1.text?.map fun name => (name, e.2)

theorem named_cons {e : Value × Value} {name : String} (h : e.1.text? = some name) (es : Entries) :
    named (e :: es) = (name, e.2) :: named es := by
  unfold named
  rw [List.filterMap_cons, h]
  rfl

theorem named_cons_of_none {e : Value × Value} (h : e.1.text? = none) (es : Entries) :
    named (e :: es) = named es := by
  unfold named
  rw [List.filterMap_cons, h]
  rfl

theorem named_append (es es' : Entries) : named (es ++ es') = named es ++ named es' :=
  List.filterMap_append

/-- Putting an entry under a name sets this name. -/
theorem named_put {key : Value} {name : String} (h : key.text? = some name) (v : Value) (es : Entries) :
    named (put key v es) = Criterion.setOperator name v (named es) := by
  induction es with
  | nil => exact named_cons h []
  | cons e es ih =>
    obtain ⟨k, old⟩ := e
    have hsame : k.same key = (k.text? == some name) := Value.same_of_text? h
    cases hk : k.text? with
    | none =>
      have hother : k.same key = false := by
        rw [hsame, hk]
        rfl
      rw [put, if_neg (by simp [hother]), named_cons_of_none hk, named_cons_of_none hk, ih]
    | some other =>
      rw [named_cons hk]
      by_cases hname : other = name
      · have hequal : k.same key = true := by simp [hsame, hk, hname]
        rw [put, if_pos hequal, named_cons hk, Criterion.setOperator, if_pos hname]
      · have hother : k.same key = false := by simp [hsame, hk, hname]
        rw [put, if_neg (by simp [hother]), named_cons hk, Criterion.setOperator, if_neg hname, ih]

/-- **Of a name that repeats the first place and the last value count.** -/
theorem enteredAs_named {es : Entries} (h : ∀ e ∈ es, e.1.text?.isSome = true) :
    Criterion.EnteredAs (named (ofPairs es)) (named es) := by
  induction es using List.reverseRecOn with
  | nil => exact Criterion.EnteredAs.nil
  | append_singleton es e ih =>
    obtain ⟨name, hname⟩ := Option.isSome_iff_exists.mp (h e List.mem_concat_self)
    have hentered := (ih fun e he => h e (List.mem_append_left _ he)).setOperator (name, e.2)
    rw [ofPairs_concat, named_put hname, named_append, named_cons hname]
    exact hentered

/-- Names of distinct keys lead to their own values. -/
theorem lookup_named {es : Entries} (h : es.Distinct) {e : Value × Value} (he : e ∈ es) {name : String}
    (hname : e.1.text? = some name) : (named es).lookup name = some e.2 := by
  induction es with
  | nil => cases he
  | cons f es ih =>
    obtain ⟨hfirst, hdistinct⟩ := List.pairwise_cons.mp h
    rcases List.mem_cons.mp he with rfl | he
    · rw [named_cons hname, lookup_pair, if_pos rfl]
    · have hother : f.1.text? ≠ some name := by
        intro hsame
        have hdiffers := hfirst e.1 (List.mem_map_of_mem he)
        rw [Value.same_of_text? hname, hsame] at hdiffers
        simp at hdiffers
      cases hf : f.1.text? with
      | none =>
        rw [named_cons_of_none hf]
        exact ih hdistinct he
      | some other =>
        rw [named_cons hf, lookup_pair, if_neg fun hsame => hother (hf.trans (congrArg some hsame.symm))]
        exact ih hdistinct he

/-- What every entry with a name is related to, its name is related to. -/
theorem forall₂_named {β : Type} {R : String → β → Prop} {f : Value × Value → β} {es : Entries}
    (hnamed : ∀ e ∈ es, e.1.text?.isSome = true) (h : ∀ e ∈ es, ∀ name, e.1.text? = some name → R name (f e)) :
    List.Forall₂ R ((named es).map (·.1)) (es.map f) := by
  induction es with
  | nil => exact .nil
  | cons e es ih =>
    obtain ⟨hfirst, hrest⟩ := List.forall_mem_cons.mp h
    obtain ⟨hname, hnames⟩ := List.forall_mem_cons.mp hnamed
    obtain ⟨name, hname⟩ := Option.isSome_iff_exists.mp hname
    rw [named_cons hname]
    exact .cons (hfirst name hname) (ih hnames hrest)

end Entries

/-! ## The fields of a lookup -/

namespace Query

/-- Keys with directions are read as fields with whole numbers. -/
theorem sort_of_directions {es : Entries} (h : ∀ e ∈ es, isDirection e.2 = .ok true) :
    Native.sort (.document es) = .ok (es.map fun e => (Native.fieldName e.1, if descends e.2 then -1 else 1)) := by
  refine mapM_eq_ok.mpr (List.forall₂_map_right_iff.mpr (List.forall₂_same.mpr fun e he => ?_))
  show (e.2.toWhole >>= fun n => Except.ok (Native.fieldName e.1, n)) = _
  rw [toWhole_of_isDirection (h e he)]
  rfl

theorem sortObject_of_names {q : Query} (h : ∀ e ∈ q.sort, e.1.text?.isSome = true) :
    q.sortObject = .ok (Entries.ofPairs q.sort) := by
  have hhashable : q.sort.all (fun e => e.1.hashable) = true := by
    refine List.all_eq_true.mpr fun e he => ?_
    obtain ⟨name, hname⟩ := Option.isSome_iff_exists.mp (h e he)
    obtain ⟨k, direction⟩ := e
    cases k with
    | text s | textMember s => rfl
    | _ => cases hname
  rw [sortObject, if_pos hhashable]

/-- The field of a sort key among the calls that have added it: it has the name of the key, and the number 1 or -1 that
equals the direction of the last of these calls. -/
structure SortsBy (calls : List (String × Value)) (name : String) (field : Value × Int) : Prop where
  name_eq : field.1.text? = some (sortField name)
  unit : field.2 = 1 ∨ field.2 = -1
  last : ∃ direction, calls.reverse.lookup name = some direction ∧ (Value.int field.2).same direction = true

/-- **The fields of a lookup are the sort keys in the order of their first calls, each with the direction of its
last.** -/
theorem sort_of_entries {q : Query} (hnames : ∀ e ∈ q.sort, e.1.text?.isSome = true)
    (hdirections : ∀ e ∈ q.sort, isDirection e.2 = .ok true) :
    ∃ object fields, q.sortObject = .ok object ∧ Native.sort (.document object) = .ok fields ∧
      List.Forall₂ (SortsBy (Entries.named q.sort)) ((Entries.named q.sort).map (·.1)).eraseDups fields := by
  have hentered := Entries.enteredAs_named hnames
  -- what holds of every key, and of every direction, holds of those that are kept
  have hkept : ∀ e ∈ Entries.ofPairs q.sort, e.1.text?.isSome = true ∧ isDirection e.2 = .ok true := by
    intro e he
    obtain ⟨⟨e₁, he₁, hkey⟩, e₂, he₂, hvalue⟩ := Entries.mem_ofPairs he
    exact ⟨hkey ▸ hnames e₁ he₁, hvalue ▸ hdirections e₂ he₂⟩
  refine ⟨_, _, sortObject_of_names hnames, sort_of_directions fun e he => (hkept e he).2, ?_⟩
  rw [← hentered.names]
  refine Entries.forall₂_named (fun e he => (hkept e he).1) fun e he name hname => ?_
  have hlast := Entries.lookup_named (Entries.distinct_ofPairs q.sort) he hname
  rw [hentered.values] at hlast
  refine ⟨text?_fieldName hname, ?_, e.2, hlast, same_of_isDirection (hkept e he).2⟩
  by_cases hdescends : descends e.2 = true
  · exact .inr (if_pos hdescends)
  · exact .inl (if_neg hdescends)

/-- The sort keys of a query in the form that a bucket takes. -/
theorem sort_of_calls {es : Entries} {q : Query} {calls : List (String × Value)}
    (hnames : (calls.map (·.1)).Nodup) (hq : ({ criteria := es } : Query).sortCalls calls = .ok q) :
    ∃ object, q.sortObject = .ok object ∧ Native.sort (.document object) =
      .ok (calls.map fun c => (.text (sortField c.1), if descends c.2 then -1 else 1)) := by
  obtain ⟨rfl, hdirections⟩ := sortCalls_eq_ok hq
  have hdistinct : Entries.Distinct (calls.map fun c => (.text c.1, c.2)) :=
    MetadataWriter.distinct_textEntries hnames
  have hunits : ∀ e ∈ calls.map fun c => (Value.text c.1, c.2), isDirection e.2 = .ok true :=
    List.forall_mem_map.mpr hdirections
  refine ⟨calls.map fun c => (.text c.1, c.2), ?_, ?_⟩
  · have hhashable : (calls.map fun c => (Value.text c.1, c.2)).all (fun e => e.1.hashable) = true := by
      simp [Value.hashable]
    rw [sortObject, List.nil_append, if_pos hhashable, Entries.ofPairs_eq_self hdistinct]
  · simpa [Function.comp_def, fieldName_text] using sort_of_directions hunits

end Query

end FileDepot
