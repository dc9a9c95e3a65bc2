import FileDepot.Proofs.Answers
import FileDepot.Proofs.Value.Entries
import FileDepot.Settings.Environment
import Mathlib.Data.List.Nodup

/-!
# Variables of the database section

The variables of an environment are looked up under their names in small letters, where the last of several
names that fall together counts. If the variables of the database section are those of its fields, then the
section that they give has the text of each of them under the name of its field, and nothing else.

Contents:

* `Environment.last?`, `VariableRules.lookup_bindings` — the text under a name in small letters;
* `Environment.last?_set`, `Environment.value?_set` — what setting a variable leaves as it is;
* `Environment.OnlyFields`, `Entries.OfFields` — variables and entries that are fields;
* `EnvironmentSection.keys?_field` — the name of a field's variable spells the name of the field;
* `EnvironmentSection.single_fields`, `EnvironmentSection.read_fields` — the section that the variables give.
-/

namespace FileDepot

/-! ## Looking names up -/

namespace Environment

/-- The text of the last variable whose name in small letters is this one. -/
def last? (e : Environment) (name : String) : Option String :=
  (e.bindings.filter fun v => Text.lowered v.1 == name).getLast?.map (·.2)

/-- The names of the variables stay, and a new one comes last. -/
theorem map_fst_assign (name text : String) (vs : List (String × String)) :
    (assign name text vs).map Prod.fst =
      if name ∈ vs.map Prod.fst then vs.map Prod.fst else vs.map Prod.fst ++ [name] := by
  induction vs with
  | nil => rfl
  | cons v vs ih =>
    obtain ⟨n, t⟩ := v
    rw [assign]
    by_cases hname : n = name
    · simp [hname]
    · rw [if_neg hname, List.map_cons, ih]
      have hother : name ≠ n := Ne.symm hname
      by_cases hmem : name ∈ vs.map Prod.fst <;> simp_all

theorem nodup_assign {vs : List (String × String)} (h : (vs.map Prod.fst).Nodup) (name text : String) :
    ((assign name text vs).map Prod.fst).Nodup := by
  rw [map_fst_assign]
  by_cases hmem : name ∈ vs.map Prod.fst
  · rw [if_pos hmem]
    exact h
  · rw [if_neg hmem, ← List.concat_eq_append]
    exact h.concat hmem

theorem mem_assign {name text : String} {vs : List (String × String)} {v : String × String}
    (h : v ∈ assign name text vs) : v ∈ vs ∨ v = (name, text) := by
  induction vs with
  | nil => exact Or.inr (List.mem_singleton.mp h)
  | cons w vs ih =>
    obtain ⟨n, t⟩ := w
    rw [assign] at h
    by_cases hname : n = name
    · rw [if_pos hname] at h
      rcases List.mem_cons.mp h with h | h
      · exact Or.inr h
      · exact Or.inl (List.mem_cons_of_mem _ h)
    · rw [if_neg hname] at h
      rcases List.mem_cons.mp h with rfl | h
      · exact Or.inl List.mem_cons_self
      · exact (ih h).imp_left (List.mem_cons_of_mem _)

theorem lookup_assign (name text other : String) (vs : List (String × String)) :
    (assign name text vs).lookup other = if other = name then some text else vs.lookup other := by
  induction vs with
  | nil => rw [assign, lookup_pair]
  | cons v vs ih =>
    obtain ⟨n, t⟩ := v
    rw [assign]
    by_cases hname : n = name
    · subst hname
      rw [if_pos rfl, lookup_pair, lookup_pair]
      by_cases hother : other = n <;> simp [hother]
    · rw [if_neg hname, lookup_pair, lookup_pair, ih]
      by_cases hother : other = n
      · have hdiffers : other ≠ name := fun h => hname (hother.symm.trans h)
        rw [if_pos hother, if_pos hother, if_neg hdiffers]
      · rw [if_neg hother, if_neg hother]

/-- A variable that does not count is not seen. -/
theorem filter_assign {p : String → Bool} {name : String} (hname : p name = false) (text : String)
    (vs : List (String × String)) :
    (assign name text vs).filter (fun v => p v.1) = vs.filter fun v => p v.1 := by
  induction vs with
  | nil => simp [assign, hname]
  | cons v vs ih =>
    obtain ⟨n, t⟩ := v
    rw [assign]
    by_cases hn : n = name
    · subst hn
      simp [hname]
    · rw [if_neg hn, List.filter_cons, List.filter_cons, ih]

theorem bindings_set {e e' : Environment} {name text : String} (h : e.set name text = .ok e') :
    e'.bindings = assign name text e.bindings := by
  unfold set at h
  split at h
  · cases h
  · split at h
    · cases h
    · cases h
      rfl

/-- Setting a variable leaves the texts under other names. -/
theorem last?_set {e e' : Environment} {name text other : String} (h : e.set name text = .ok e')
    (hother : Text.lowered name ≠ other) : e'.last? other = e.last? other := by
  have hname : (Text.lowered name == other) = false := by simpa using hother
  unfold last?
  rw [bindings_set h, filter_assign (p := fun n => Text.lowered n == other) hname]

theorem value?_set {e e' : Environment} {name text other : String} (h : e.set name text = .ok e')
    (hother : other ≠ name) : e'.value? other = e.value? other := by
  unfold value?
  rw [bindings_set h, lookup_assign, if_neg hother]

end Environment

/-! ## Names in small letters -/

namespace VariableRules

theorem bindings_eq (e : Environment) :
    bindings {} e = e.bindings.foldl (fun vs v => Environment.assign (Text.lowered v.1) v.2 vs) [] := by
  have hall : (e.bindings.filter fun v => !(({} : VariableRules).skipsEmpty && v.2 == "")) = e.bindings :=
    List.filter_eq_self.mpr fun _ _ => rfl
  rw [bindings, hall]
  rfl

/-- **Of names that fall together the last one counts.** -/
theorem lookup_bindings (e : Environment) (name : String) : (bindings {} e).lookup name = e.last? name := by
  rw [bindings_eq, Environment.last?]
  induction e.bindings using List.reverseRecOn with
  | nil => rfl
  | append_singleton vs v ih =>
    rw [List.foldl_append, List.foldl_cons, List.foldl_nil, Environment.lookup_assign, ih, List.filter_append,
      List.getLast?_append, List.filter_cons, List.filter_nil]
    by_cases hname : Text.lowered v.1 = name
    · simp [hname]
    · have hother : name ≠ Text.lowered v.1 := Ne.symm hname
      simp [hname, hother]

theorem nodup_bindings (e : Environment) : ((bindings {} e).map Prod.fst).Nodup := by
  rw [bindings_eq]
  induction e.bindings using List.reverseRecOn with
  | nil => exact List.nodup_nil
  | append_singleton vs v ih =>
    rw [List.foldl_append]
    exact Environment.nodup_assign ih _ _

/-- The names that are compared are names of variables in small letters. -/
theorem exists_of_mem_bindings {e : Environment} {v : String × String} (h : v ∈ bindings {} e) :
    ∃ w ∈ e.bindings, Text.lowered w.1 = v.1 := by
  rw [bindings_eq] at h
  generalize e.bindings = bound at h ⊢
  induction bound using List.reverseRecOn with
  | nil => cases h
  | append_singleton vs w ih =>
    rw [List.foldl_append] at h
    rcases Environment.mem_assign h with h | rfl
    · obtain ⟨w', hw', hname⟩ := ih h
      exact ⟨w', List.mem_append_left _ hw', hname⟩
    · exact ⟨w, by simp, rfl⟩

end VariableRules

/-! ## Variables of fields -/

theorem Text.dropPrefix?_eq_some {opening cs rest : List Char} :
    dropPrefix? opening cs = some rest ↔ cs = opening ++ rest := by
  induction opening generalizing cs with
  | nil => simp [dropPrefix?]
  | cons c opening ih =>
    cases cs with
    | nil => simp [dropPrefix?]
    | cons d cs =>
      rw [dropPrefix?]
      by_cases hcd : c = d
      · rw [if_pos hcd, ih, hcd]
        simp
      · rw [if_neg hcd]
        simp [Ne.symm hcd]

/-- The name of the variable of a field of the database section, in small letters. -/
def DatabaseSettings.variableOf (field : String) : String :=
  "pygridfs_mongo__" ++ field

theorem DatabaseSettings.variableOf_inj {key key' : String} (h : variableOf key = variableOf key') : key = key' :=
  String.append_right_inj _ |>.mp h

/-- No variable gives the database section as a whole, and those that give an entry of it give a field. -/
def Environment.OnlyFields (e : Environment) : Prop :=
  ∀ v ∈ e.bindings, Text.lowered v.1 ≠ "pygridfs_mongo" ∧
    ∀ key, Text.lowered v.1 = DatabaseSettings.variableOf key → key ∈ DatabaseSettings.fieldNames

theorem DatabaseSettings.variableOf_ne (key : String) : variableOf key ≠ "pygridfs_mongo" := by
  intro h
  have hlength : (variableOf key).length = "pygridfs_mongo__".length + key.length := String.length_append _ _
  have hopening : "pygridfs_mongo__".length = 16 := by decide +kernel
  have hwhole : "pygridfs_mongo".length = 14 := by decide +kernel
  rw [h, hopening, hwhole] at hlength
  omega

/-- Setting the variable of a field gives nothing else of the section. -/
theorem Environment.OnlyFields.set {e e' : Environment} (h : e.OnlyFields) {name text field : String}
    (hfield : field ∈ DatabaseSettings.fieldNames) (hname : Text.lowered name = DatabaseSettings.variableOf field)
    (hset : e.set name text = .ok e') : e'.OnlyFields := by
  intro v hv
  rw [bindings_set hset] at hv
  rcases mem_assign hv with hv | rfl
  · exact h v hv
  · rw [hname]
    refine ⟨DatabaseSettings.variableOf_ne field, fun key hkey => ?_⟩
    rw [← DatabaseSettings.variableOf_inj hkey]
    exact hfield

/-- The entries are fields of the database section, each at most once. -/
structure Entries.OfFields (es : Entries) : Prop where
  distinct : es.Distinct
  names : ∀ e ∈ es, ∃ field ∈ DatabaseSettings.fieldNames, e.1 = .text field

theorem Entries.OfFields.put {es : Entries} (h : es.OfFields) {field : String}
    (hfield : field ∈ DatabaseSettings.fieldNames) (v : Value) : (Entries.put (.text field) v es).OfFields where
  distinct := distinct_put h.distinct _ _
  names := by
    intro e he
    rcases (mem_put he).1 with hkey | ⟨e', he', hkey⟩
    · exact ⟨field, hfield, hkey⟩
    · rw [← hkey]
      exact h.names e' he'

namespace EnvironmentSection

open DatabaseSettings (fieldNames variableOf)
open Settings (databaseSection)

/-- The name of a field's variable spells the name of the field. -/
theorem keys?_field {field : String} (h : field ∈ fieldNames) :
    databaseSection.keys? {} (variableOf field) = some [field] := by
  have hall : ∀ field ∈ fieldNames, databaseSection.keys? {} (variableOf field) = some [field] := by
    decide +kernel
  exact hall field h

/-- Other variables do not belong to the section. -/
theorem keys?_eq_none {name : String} (h : ∀ key, name ≠ variableOf key) :
    databaseSection.keys? {} name = none := by
  have hopening : (({} : VariableRules).nameOf databaseSection.name ++ ({} : VariableRules).joint) =
      "pygridfs_mongo__" := by decide +kernel
  have hnone : Text.dropPrefix? "pygridfs_mongo__".toList name.toList = none := by
    cases hrest : Text.dropPrefix? "pygridfs_mongo__".toList name.toList with
    | none => rfl
    | some rest =>
      have hname : (variableOf (String.ofList rest)).toList = "pygridfs_mongo__".toList ++ rest :=
        String.toList_append.trans (congrArg _ String.toList_ofList)
      refine absurd (String.toList_inj.mp ?_) (h (String.ofList rest))
      rw [Text.dropPrefix?_eq_some.mp hrest, hname]
  rw [keys?, hopening, hnone]
  rfl

/-- The variable of a field sets the entry of this field to its text. -/
theorem single_cons {field : String} (hfield : field ∈ fieldNames) (text : String) (vs : List (String × String))
    (es : Entries) :
    databaseSection.single {} ((variableOf field, text) :: vs) es =
      databaseSection.single {} vs (Entries.put (.text field) (.text text) es) := by
  rw [single, keys?_field hfield]
  simp [isStructured, databaseSection, putUnder, pure, Except.pure, bind, Except.bind]

/-- **The entries that variables give.** Each variable of a field sets the entry of this field to its text. -/
theorem single_fields {vs : List (String × String)}
    (hfields : ∀ v ∈ vs, ∀ key, v.1 = variableOf key → key ∈ fieldNames) (hnames : (vs.map Prod.fst).Nodup)
    {es : Entries} (hes : es.OfFields) :
    ∃ es', databaseSection.single {} vs es = .ok es' ∧ es'.OfFields ∧
      ∀ key, es'.get? key = ((vs.lookup (variableOf key)).map Value.text).or (es.get? key) := by
  induction vs generalizing es with
  | nil => exact ⟨es, rfl, hes, fun _ => rfl⟩
  | cons v vs ih =>
    obtain ⟨name, text⟩ := v
    obtain ⟨hfirst, hrest⟩ := List.forall_mem_cons.mp hfields
    obtain ⟨hnew, hnodup⟩ := List.nodup_cons.mp hnames
    by_cases hkey : ∃ key, name = variableOf key
    · obtain ⟨field, rfl⟩ := hkey
      have hfield := hfirst field rfl
      obtain ⟨es', hsingle, hfields', hget⟩ := ih hrest hnodup (hes.put hfield (.text text))
      refine ⟨es', ?_, hfields', fun key => ?_⟩
      · rw [single_cons hfield]
        exact hsingle
      · rw [hget, Entries.get?_put, lookup_pair]
        by_cases hsame : key = field
        · -- no later variable has this name
          subst hsame
          have hnone : vs.lookup (variableOf key) = none := by
            refine List.lookup_eq_none_iff.mpr fun v hv => ?_
            have hname : v.1 ∈ vs.map Prod.fst := List.mem_map_of_mem hv
            have hdiffers : v.1 ≠ variableOf key := fun h => hnew (h ▸ hname)
            simpa using Ne.symm hdiffers
          simp [hnone]
        · have hother : variableOf key ≠ variableOf field := fun h => hsame (DatabaseSettings.variableOf_inj h)
          rw [if_neg hother, if_neg (Ne.symm hsame)]
    · have hnone := keys?_eq_none fun key h => hkey ⟨key, h⟩
      obtain ⟨es', hsingle, hfields', hget⟩ := ih hrest hnodup hes
      refine ⟨es', ?_, hfields', fun key => ?_⟩
      · rw [single, hnone]
        exact hsingle
      · have hother : variableOf key ≠ name := fun h => hkey ⟨key, h.symm⟩
        rw [hget, lookup_pair, if_neg hother]

/-- Entries under the names of fields are under these names already. -/
theorem map_named {es : Entries} (h : es.OfFields) : es.map databaseSection.named = es := by
  have hall : ∀ field ∈ fieldNames,
      (databaseSection.fields.find? fun f => Text.lowered f == Text.lowered field) = some field := by
    decide +kernel
  refine (List.map_congr_left fun e he => ?_).trans (List.map_id es)
  obtain ⟨k, v⟩ := e
  obtain ⟨field, hfield, rfl⟩ := h.names _ he
  rw [named]
  simp only [hall field hfield]
  rfl

/-- **The section that the variables give**: the text of each variable of a field under the name of the
field. -/
theorem read_fields {e : Environment} (h : e.OnlyFields) :
    ∃ es : Entries, databaseSection.read {} e = .ok (if es.isEmpty then none else some (.document es)) ∧
      es.OfFields ∧ ∀ key, es.get? key = (e.last? (variableOf key)).map Value.text := by
  have hfields : ∀ v ∈ VariableRules.bindings {} e, ∀ key, v.1 = variableOf key → key ∈ fieldNames := by
    intro v hv key hkey
    obtain ⟨w, hw, hname⟩ := VariableRules.exists_of_mem_bindings hv
    exact (h w hw).2 key (hname.trans hkey)
  obtain ⟨es, hsingle, hes, hget⟩ :=
    single_fields hfields (VariableRules.nodup_bindings e) (⟨.nil, by simp⟩ : Entries.OfFields [])
  have hwhole : (VariableRules.bindings {} e).lookup (({} : VariableRules).nameOf databaseSection.name) = none := by
    have hname : ({} : VariableRules).nameOf databaseSection.name = "pygridfs_mongo" := by decide +kernel
    rw [hname]
    refine List.lookup_eq_none_iff.mpr fun v hv => ?_
    obtain ⟨w, hw, hlowered⟩ := VariableRules.exists_of_mem_bindings hv
    have hdiffers : v.1 ≠ "pygridfs_mongo" := hlowered ▸ (h w hw).1
    simpa using Ne.symm hdiffers
  have hdocument : databaseSection.document {} es = .document es := by
    unfold document
    rw [map_named hes, Entries.ofPairs_eq_self hes.distinct]
    rfl
  refine ⟨es, ?_, hes, fun key => ?_⟩
  · unfold read
    simp only [hwhole]
    rw [hsingle]
    show Except.ok (if es.isEmpty then none else some (databaseSection.document {} es)) = _
    rw [hdocument]
  · rw [hget, VariableRules.lookup_bindings]
    exact Option.or_none

end EnvironmentSection

end FileDepot
