import FileDepot.Proofs.Settings.Layers

/-!
# Files that are refused

The entries of a settings file are looked at for rules for variables before they are checked, and their keys have to
be texts for this. A key that is no text, or that starts as the names of the rules do, may therefore fail otherwise
than by a value that is not acceptable. Whatever else a file spells fails by its values alone.

Contents:

* `EnvironmentSection.read_failsOnly`, `Settings.environmentEntries_failsOnly` — variables that cannot be read;
* `VariableRules.IsPlain`, `VariableRules.ofEntries_of_plain` — keys that lay down no rule;
* `SettingsSource.Spells`, `SettingsSource.document_of_spells` — the value that a file spells;
* `SettingsSource.layered_failsOnly`, `SettingsSource.layered_of_plain` — the layers of a file put together;
* `SettingsSource.HasOddKey`, `SettingsSource.settings_of_spells` — what the settings of a file that spells a value
  fail with.
-/

namespace FileDepot

/-- The failure comes from a value that is not acceptable. -/
def Failure.IsValue (f : Failure) : Prop :=
  f.origin = .value

/-! ## Variables -/

namespace EnvironmentSection

theorem structuredValue_failsOnly (text : String) : FailsOnly Failure.IsValue (structuredValue text) := by
  unfold structuredValue
  cases Json.read? text with
  | some v => exact .ok v
  | none => exact .error rfl

/-- Single variables cannot be read only where they hold a text that is no JSON. -/
theorem single_failsOnly (s : EnvironmentSection) (r : VariableRules) (vs : List (String × String)) (es : Entries) :
    FailsOnly Failure.IsValue (s.single r vs es) := by
  induction vs generalizing es with
  | nil => exact .ok es
  | cons v vs ih =>
    obtain ⟨name, text⟩ := v
    rw [single]
    cases hkeys : s.keys? r name with
    | none => exact ih es
    | some keys =>
      simp only
      split_ifs
      · exact FailsOnly.bind (structuredValue_failsOnly text) fun v _ => ih _
      · exact FailsOnly.bind (.ok Value.null) fun v _ => ih _
      · exact FailsOnly.bind (.ok (Value.text text)) fun v _ => ih _

theorem read_failsOnly (s : EnvironmentSection) (r : VariableRules) (e : Environment) :
    FailsOnly Failure.IsValue (s.read r e) := by
  unfold read
  simp only
  cases (r.bindings e).lookup (r.nameOf s.name) with
  | none => exact FailsOnly.bind (single_failsOnly s r _ _) fun es _ => .ok _
  | some text =>
    simp only
    by_cases hnull : r.nullText = some text
    · rw [if_pos hnull]
      exact .ok _
    · rw [if_neg hnull]
      refine FailsOnly.bind (structuredValue_failsOnly text) fun v _ => ?_
      cases v with
      | map kind es =>
        refine FailsOnly.bind (single_failsOnly s r _ _) fun single _ => ?_
        cases Value.overlay (.document es) (.document single) <;> exact .ok _
      | _ => exact .ok _

end EnvironmentSection

theorem Settings.environmentEntries_failsOnly (r : VariableRules) (e : Environment) :
    FailsOnly Failure.IsValue (environmentEntries r e) := by
  unfold environmentEntries
  refine FailsOnly.bind (databaseSection.read_failsOnly r e) fun database _ => ?_
  exact FailsOnly.bind (loggingSection.read_failsOnly r e) fun logging _ => .ok _

/-! ## Rules for variables -/

/-- The failure comes from a value that is not acceptable or from one of another kind. -/
def Failure.IsValueOrKind (f : Failure) : Prop :=
  f.IsValue ∨ f = .wrongKind

namespace VariableRules

theorem markOf_failsOnly (v : Value) : FailsOnly Failure.IsValueOrKind (markOf v) := by
  cases v with
  | text s => exact .ok s
  | list | map | set | bytes => exact .error (.inl rfl)
  | _ => exact .error (.inr rfl)

theorem jointLimitOf_failsOnly (v : Value) : FailsOnly Failure.IsValueOrKind (jointLimitOf v) := by
  unfold jointLimitOf
  cases v.whole? with
  | some n => exact .ok _
  | none =>
    simp only
    split_ifs
    · exact .error (.inr rfl)
    · exact .ok none

theorem ofEntries_failsOnly (es : Entries) : FailsOnly Failure.IsValueOrKind (ofEntries es) := by
  unfold ofEntries
  refine FailsOnly.bind ?_ fun mark _ => FailsOnly.bind ?_ fun limit _ => .ok _
  · cases laidDown? es "_env_prefix" with
    | none => exact .ok _
    | some v => exact markOf_failsOnly v
  · cases laidDown? es "_env_nested_max_split" with
    | none => exact .ok _
    | some v => exact jointLimitOf_failsOnly v

/-- The key is a text that does not start with an underscore, as the names of all rules do. -/
def IsPlain (key : Value) : Prop :=
  ∃ name, key.text? = some name ∧ name.toList.head? ≠ some '_'

/-- Plain keys lay down no rules. -/
theorem ofEntries_of_plain {es : Entries} (h : ∀ e ∈ es, IsPlain e.1) : ofEntries es = .ok {} := by
  have hnone (name : String) (hname : name.toList.head? = some '_') : laidDown? es name = none := by
    have hget : es.get? name = none := by
      refine Entries.get?_eq_none fun e he hkey => ?_
      obtain ⟨other, hother, hhead⟩ := h e he
      obtain rfl : other = name := Option.some.inj (hother.symm.trans hkey)
      exact hhead hname
    rw [laidDown?, hget]
    rfl
  have hfurther : (furtherNames.filter fun name => (laidDown? es name).isSome) = [] := by
    have hnames : ∀ name ∈ furtherNames, name.toList.head? = some '_' := by decide
    refine List.filter_eq_nil_iff.mpr fun name hname => ?_
    rw [hnone name (hnames name hname)]
    exact Bool.false_ne_true
  unfold ofEntries
  rw [hfurther, hnone "_env_prefix" rfl, hnone "_env_nested_max_split" rfl, hnone "_env_nested_delimiter" rfl,
    hnone "_case_sensitive" rfl, hnone "_env_ignore_empty" rfl, hnone "_env_parse_none_str" rfl]
  rfl

end VariableRules

/-! ## Files -/

namespace SettingsSource

open VariableRules (IsPlain)

/-- The file that is read is there and spells the value. -/
def Spells (s : SettingsSource) (path : Option String) (v : Value) : Prop :=
  ∃ found content text, s.filePath path = .ok found ∧ s.files.read found = .ok content ∧
    Text.stringOfBytes? content = some text ∧ Yaml.read (Settings.withPlainBreaks text.toList) = .ok v

/-- The entries of a file are those of the mapping that it spells. A file with nothing in it has none, and any other
file is refused. -/
theorem document_of_spells {s : SettingsSource} {path : Option String} {v : Value} (h : s.Spells path v) :
    (∃ kind es, v = .map kind es ∧ s.document path = .ok es) ∨
      (∀ kind es, v ≠ .map kind es) ∧
        (s.document path = .ok [] ∨ ∃ reason, s.document path = .error (.invalid reason)) := by
  obtain ⟨found, content, text, hfound, hcontent, htext, hread⟩ := h
  have hdocument : s.document path = Settings.fileEntries found content := by
    rw [document, hfound]
    show (s.files.read found >>= fun content => Settings.fileEntries found content) = _
    rw [hcontent]
    rfl
  rw [hdocument, Settings.fileEntries, htext]
  simp only [hread]
  cases v with
  | map kind es =>
    refine .inl ⟨kind, es, rfl, ?_⟩
    cases es <;> rfl
  | _ =>
    refine .inr ⟨fun kind es heq => (by cases heq), ?_⟩
    split_ifs
    · exact .inl rfl
    · exact .inr ⟨_, rfl⟩

theorem layered_of_noText {s : SettingsSource} {es : Entries} (h : ∃ e ∈ es, e.1.text? = none) :
    s.layered es = .error .wrongKind := by
  obtain ⟨e, he, hkey⟩ := h
  have hall : ¬ (es.all fun e => e.1.text?.isSome) = true := by
    intro hall
    have hsome := List.all_eq_true.mp hall e he
    rw [hkey] at hsome
    cases hsome
  rw [layered, if_neg hall]

/-- Layers that are put together fail by the variables, or before that by the keys of the file. -/
theorem layered_failsOnly {p : Failure → Prop} (hvalue : ∀ f : Failure, f.IsValue → p f) {s : SettingsSource}
    {es : Entries} (hrules : FailsOnly p (VariableRules.ofEntries es))
    (hkeys : (∃ e ∈ es, e.1.text? = none) → p .wrongKind) : FailsOnly p (s.layered es) := by
  by_cases hnone : ∃ e ∈ es, e.1.text? = none
  · rw [layered_of_noText hnone]
    exact .error (hkeys hnone)
  · have hall : (es.all fun e => e.1.text?.isSome) = true := by
      rw [List.all_eq_true]
      exact fun e he => Option.isSome_iff_ne_none.mpr fun hkey => hnone ⟨e, he, hkey⟩
    rw [layered, if_pos hall]
    refine FailsOnly.bind hrules fun rules _ => ?_
    refine FailsOnly.bind ((Settings.environmentEntries_failsOnly _ _).mono hvalue) fun upper _ => ?_
    cases Value.overlay (.document (Settings.sectionEntries es)) (.document upper) <;> exact .ok _

theorem settings_failsOnly {p : Failure → Prop} (hvalue : ∀ f : Failure, f.IsValue → p f) {s : SettingsSource}
    {path : Option String} (hdocument : FailsOnly p (s.document path))
    (hlayered : ∀ es, s.document path = .ok es → FailsOnly p (s.layered es)) : FailsOnly p (s.settings path) := by
  rw [settings_eq]
  refine FailsOnly.bind hdocument fun es hes => FailsOnly.bind (hlayered es hes) fun layered _ => ?_
  cases Settings.ofEntries layered with
  | accepted settings => exact .ok settings
  | refused issues => exact .error (hvalue _ rfl)

theorem layered_of_plain {s : SettingsSource} {es : Entries} (h : ∀ e ∈ es, IsPlain e.1) :
    FailsOnly Failure.IsValue (s.layered es) := by
  refine layered_failsOnly (fun f => id) ?_ fun ⟨e, he, hkey⟩ => ?_
  · rw [VariableRules.ofEntries_of_plain h]
    exact .ok _
  · obtain ⟨name, hname, -⟩ := h e he
    rw [hname] at hkey
    cases hkey

/-- A key of the mapping is not plain. -/
def HasOddKey (v : Value) : Prop :=
  ∃ kind es, v = .map kind es ∧ ∃ e ∈ es, ¬ IsPlain e.1

/-- A file that spells a value fails by a value, or else a key of its mapping is in the way. -/
theorem settings_failsOnly_of_spells {s : SettingsSource} {path : Option String} {v : Value}
    (h : s.Spells path v) :
    FailsOnly (fun f => f.IsValue ∨ f = .wrongKind ∧ HasOddKey v) (s.settings path) := by
  have hvalue : ∀ f : Failure, f.IsValue → f.IsValue ∨ f = .wrongKind ∧ HasOddKey v := fun f => .inl
  rcases document_of_spells h with ⟨kind, es, rfl, hdocument⟩ | ⟨-, hdocument | ⟨reason, hdocument⟩⟩
  · refine settings_failsOnly hvalue (hdocument ▸ .ok es) fun es' hes' => ?_
    obtain rfl : es = es' := Except.ok.inj (hdocument.symm.trans hes')
    by_cases hplain : ∀ e ∈ es, IsPlain e.1
    · exact (layered_of_plain hplain).mono hvalue
    · -- the rules are read before any variable is, and there the key may be of another kind
      have hodd : HasOddKey (.map kind es) := ⟨kind, es, rfl, by simpa using hplain⟩
      have hrules : FailsOnly (fun f => f.IsValue ∨ f = .wrongKind ∧ HasOddKey (.map kind es))
          (VariableRules.ofEntries es) :=
        (VariableRules.ofEntries_failsOnly es).mono fun f hf => hf.imp_right fun hf => ⟨hf, hodd⟩
      exact layered_failsOnly hvalue hrules fun _ => .inr ⟨rfl, hodd⟩
  · refine settings_failsOnly hvalue (hdocument ▸ .ok []) fun es hes => ?_
    obtain rfl : [] = es := Except.ok.inj (hdocument.symm.trans hes)
    exact (layered_of_plain (by simp)).mono hvalue
  · refine settings_failsOnly hvalue (hdocument ▸ .error (.inl rfl)) fun es hes => ?_
    rw [hdocument] at hes
    cases hes

/-- **A file that spells a value gives settings or fails by a value, unless a key of its mapping is in the way.** Such
a key is no text, and then the file always fails, or it starts with an underscore. All other keys and all values may
be of any kind, and the variables may be any. Of the rules that keys with an underscore lay down those for variables
are followed, and further places to read from are not. -/
theorem settings_of_spells {s : SettingsSource} {path : Option String} {v : Value} (h : s.Spells path v) :
    ((∃ settings, s.settings path = .ok settings) ∨ (∃ f, s.settings path = .error f ∧ f.origin = .value) ∨
      s.settings path = .error .wrongKind ∧ HasOddKey v) ∧
    ∀ kind es, v = .map kind es → (∃ e ∈ es, e.1.text? = none) → s.settings path = .error .wrongKind := by
  constructor
  · have hfails := settings_failsOnly_of_spells h
    cases hsettings : s.settings path with
    | ok settings => exact .inl ⟨settings, rfl⟩
    | error f =>
      rcases hfails f hsettings with hf | ⟨rfl, hodd⟩
      · exact .inr (.inl ⟨f, rfl, hf⟩)
      · exact .inr (.inr ⟨rfl, hodd⟩)
  · rintro kind es rfl hkey
    rcases document_of_spells h with ⟨kind', es', heq, hdocument⟩ | ⟨hnone, -⟩
    · obtain ⟨rfl, rfl⟩ := Value.map.inj heq
      rw [settings_eq, hdocument]
      show (s.layered es >>= _) = _
      rw [layered_of_noText hkey]
      rfl
    · exact absurd rfl (hnone kind es)

/-- A file whose only key is a number, by its tag, fails though not by a value. -/
theorem settings_of_spells_number :
    let text := "!!int \"1\": \"x\"\n"
    let s : SettingsSource := {
      files := { nodes := [(["c.yaml"], .file text.toUTF8.toList)] }
      environment := ⟨[]⟩
      packaged := "" }
    ∃ v, s.Spells (some "/c.yaml") v ∧ s.settings (some "/c.yaml") = .error .wrongKind := by
  intro text s
  have hfile : s.filePath (some "/c.yaml") = .ok "/c.yaml" := rfl
  have hcontent : s.files.read "/c.yaml" = .ok text.toUTF8.toList := by decide +kernel
  have htext : Text.stringOfBytes? text.toUTF8.toList = some text := by decide +kernel
  have hvalue : (Yaml.read (Settings.withPlainBreaks text.toList)).map (fun _ => ()) = .ok () := by
    decide +kernel
  have hnumber : (s.document (some "/c.yaml")).map (fun es => es.any fun e => e.1.text?.isNone) = .ok true := by
    decide +kernel
  obtain ⟨v, hread, -⟩ := map_eq_ok.mp hvalue
  obtain ⟨es, hdocument, hkey⟩ := map_eq_ok.mp hnumber
  have hspells : s.Spells (some "/c.yaml") v := ⟨_, _, _, hfile, hcontent, htext, hread⟩
  rcases document_of_spells hspells with ⟨kind, es', rfl, hes⟩ | ⟨-, hempty | ⟨reason, hrefused⟩⟩
  · obtain rfl : es = es' := Except.ok.inj (hdocument.symm.trans hes)
    obtain ⟨e, he, hnone⟩ := List.any_eq_true.mp hkey
    have hfailure := (settings_of_spells hspells).2 kind es rfl ⟨e, he, Option.isNone_iff_eq_none.mp hnone⟩
    exact ⟨_, hspells, hfailure⟩
  · obtain rfl : es = [] := Except.ok.inj (hdocument.symm.trans hempty)
    cases hkey
  · rw [hdocument] at hrefused
    cases hrefused

end SettingsSource

end FileDepot
