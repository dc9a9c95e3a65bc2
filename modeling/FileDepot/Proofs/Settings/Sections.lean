import FileDepot.Proofs.Settings.Layers

/-!
# The database section under any rules

A settings file may lay down rules for the names and the texts of variables, and a variable may give the section as a
whole, as JSON. In each case the section that the variables give is a mapping whose keys are texts, each of them once,
or it is refused with the settings. So every field of the database is read from that section where it has one, and else
from the section of the file.

Contents:

* `Entries.Keyed` — keys that are texts, each of them once, and what keeps them so;
* `Json.read?_keyed`, `EnvironmentSection.read_keyed` — mappings of JSON, and sections that variables give, are such;
* `Settings.fieldOf`, `Settings.layeredField` — the entry of a field in a section, and in one section over another;
* `SettingsSource.settings_layered` — the fields of the database are read from the two sections;
* `Settings.configuredBucket`, `DatabaseSettings.ReadFrom.bucket_eq` — the bucket of the settings;
* `EnvironmentSection.fieldOf_read` — the fields of the variables' section under the usual rules.
-/

namespace FileDepot

/-! ## Keys that are texts -/

/-- The keys are texts, each of them once. -/
structure Entries.Keyed (es : Entries) : Prop where
  distinct : es.Distinct
  texts : ∀ e ∈ es, ∃ s, e.1 = .text s

namespace Entries

theorem keyed_nil : Keyed [] :=
  ⟨.nil, by simp⟩

theorem Keyed.put {es : Entries} (h : es.Keyed) (key : String) (v : Value) : (put (.text key) v es).Keyed where
  distinct := distinct_put h.distinct _ _
  texts := by
    intro e he
    rcases (mem_put he).1 with hkey | ⟨e', he', hkey⟩
    · exact ⟨key, hkey⟩
    · rw [← hkey]
      exact h.texts e' he'

theorem Keyed.update {es es' : Entries} (h : es.Keyed) (htexts : ∀ e ∈ es', ∃ s, e.1 = .text s) :
    (update es es').Keyed := by
  induction es' generalizing es with
  | nil => exact h
  | cons e es' ih =>
    obtain ⟨k, v⟩ := e
    obtain ⟨⟨s, rfl⟩, hrest⟩ := List.forall_mem_cons.mp htexts
    exact ih (h.put s v) hrest

theorem keyed_ofPairs {es : Entries} (htexts : ∀ e ∈ es, ∃ s, e.1 = .text s) : (ofPairs es).Keyed :=
  keyed_nil.update htexts

end Entries

namespace Value

/-- The entries that are laid over others keep their keys. -/
theorem texts_overlayEntries (base : Entries) {upper : Entries} (h : ∀ e ∈ upper, ∃ s, e.1 = .text s) :
    ∀ e ∈ overlayEntries base upper, ∃ s, e.1 = .text s := by
  induction upper with
  | nil => simp [overlayEntries]
  | cons e upper ih =>
    obtain ⟨hfirst, hrest⟩ := List.forall_mem_cons.mp h
    rw [overlayEntries]
    exact List.forall_mem_cons.mpr ⟨hfirst, ih hrest⟩

/-- What is no mapping counts alone, over whatever it is laid. -/
theorem overlay_of_not_map (lower : Value) {upper : Value} (h : ∀ kind es, upper ≠ .map kind es) :
    overlay lower upper = upper := by
  rw [overlay]
  exact h

/-- A mapping laid over anything is a mapping. -/
theorem overlay_map (lower : Value) (kind : MapKind) (es : Entries) :
    ∃ es', overlay lower (.map kind es) = .map kind es' := by
  unfold overlay
  cases lower <;> exact ⟨_, rfl⟩

end Value

/-! ## Mappings of JSON -/

namespace Json

theorem entries?_texts {fuel : Nat} {cs rest : List Char} {es : Entries} (h : entries? fuel cs = some (es, rest)) :
    ∀ e ∈ es, ∃ s, e.1 = .text s := by
  induction fuel generalizing cs es rest with
  | zero => cases h
  | succ fuel ih =>
    unfold entries? at h
    split at h
    case h_1 behind =>
      obtain ⟨⟨key, afterKey⟩, hkey, h⟩ := Option.bind_eq_some_iff.mp h
      simp only at h
      split at h
      case h_1 afterColon =>
        obtain ⟨⟨v, afterValue⟩, hv, h⟩ := Option.bind_eq_some_iff.mp h
        simp only at h
        split at h
        case h_1 =>
          obtain ⟨rfl, -⟩ := Prod.mk.inj (Option.some.inj h)
          exact List.forall_mem_singleton.mpr ⟨key, rfl⟩
        case h_2 =>
          obtain ⟨⟨more, afterMore⟩, hmore, h⟩ := Option.bind_eq_some_iff.mp h
          obtain ⟨rfl, -⟩ := Prod.mk.inj (Option.some.inj h)
          exact List.forall_mem_cons.mpr ⟨⟨key, rfl⟩, ih hmore⟩
        case h_3 => cases h
      case h_2 => cases h
    case h_2 => cases h

/-- A number is a whole number or a fraction. -/
theorem number?_not_map {cs rest : List Char} {kind : MapKind} {es : Entries} :
    number? cs ≠ some (.map kind es, rest) := by
  intro h
  unfold number? at h
  simp only at h
  obtain ⟨⟨whole, behind⟩, -, h⟩ := Option.bind_eq_some_iff.mp h
  simp only at h
  split at h
  · split at h
    · cases h
    · cases h
  · obtain ⟨x, -, h⟩ := Option.bind_eq_some_iff.mp h
    cases h

/-- No word and no number is a mapping. -/
theorem simple?_not_map {cs rest : List Char} {kind : MapKind} {es : Entries} :
    simple? cs ≠ some (.map kind es, rest) := by
  intro h
  unfold simple? at h
  split at h
  case h_1 found hfound =>
    obtain ⟨w, hw, hword⟩ := List.exists_of_findSome?_eq_some hfound
    obtain ⟨behind, -, rfl⟩ := Option.map_eq_some_iff.mp hword
    have hwords : ∀ w ∈ words, ∀ kind es, w.2 ≠ .map kind es := by simp [words]
    exact hwords w hw kind es (Prod.mk.inj (Option.some.inj h)).1
  case h_2 => exact number?_not_map h

/-- A mapping of JSON has texts as keys, each of them once. -/
theorem value?_keyed {fuel : Nat} {cs rest : List Char} {kind : MapKind} {es : Entries}
    (h : value? fuel cs = some (.map kind es, rest)) : es.Keyed := by
  cases fuel with
  | zero => cases h
  | succ fuel =>
    unfold value? at h
    split at h
    case h_1 =>
      obtain ⟨s, -, h⟩ := Option.map_eq_some_iff.mp h
      cases h
    case h_2 =>
      split at h
      · cases h
      · obtain ⟨vs, -, h⟩ := Option.map_eq_some_iff.mp h
        cases h
    case h_3 =>
      split at h
      · cases h
        exact Entries.keyed_nil
      · obtain ⟨⟨pairs, behind⟩, hpairs, h⟩ := Option.map_eq_some_iff.mp h
        cases h
        exact Entries.keyed_ofPairs (entries?_texts hpairs)
    case h_4 => exact absurd h simple?_not_map

theorem read?_keyed {text : String} {kind : MapKind} {es : Entries} (h : read? text = some (.map kind es)) :
    es.Keyed := by
  unfold read? at h
  obtain ⟨⟨v, behind⟩, hv, h⟩ := Option.bind_eq_some_iff.mp h
  simp only at h
  split at h
  · obtain rfl := Option.some.inj h
    exact value?_keyed hv
  · cases h

end Json

/-! ## Sections that variables give -/

namespace EnvironmentSection

theorem keyed_putUnder {es : Entries} (h : es.Keyed) (v : Value) (isNothing : Bool) (keys : List String) :
    (putUnder v isNothing keys es).Keyed := by
  unfold putUnder
  split
  case h_1 => exact h
  case h_2 key =>
    split
    · exact h
    · exact h.put key v
  case h_3 key _ _ =>
    split
    · exact h.put key _
    · exact h.put key _
    · exact h

theorem structuredValue_keyed {text : String} {kind : MapKind} {es : Entries}
    (h : structuredValue text = .ok (.map kind es)) : es.Keyed := by
  unfold structuredValue at h
  split at h
  case h_1 hread =>
    obtain rfl := Except.ok.inj h
    exact Json.read?_keyed hread
  case h_2 => cases h

/-- Single variables give entries under texts. -/
theorem single_keyed {s : EnvironmentSection} {r : VariableRules} {vs : List (String × String)} {es es' : Entries}
    (h : es.Keyed) (hsingle : s.single r vs es = .ok es') : es'.Keyed := by
  induction vs generalizing es with
  | nil =>
    obtain rfl := Except.ok.inj hsingle
    exact h
  | cons v vs ih =>
    obtain ⟨name, text⟩ := v
    rw [single] at hsingle
    cases hkeys : s.keys? r name with
    | none =>
      rw [hkeys] at hsingle
      exact ih h hsingle
    | some keys =>
      simp only [hkeys] at hsingle
      split_ifs at hsingle
      all_goals
        obtain ⟨v, -, hrest⟩ := bind_eq_ok.mp hsingle
        exact ih (keyed_putUnder h v _ keys) hrest

/-- An entry keeps its text as key, or takes the name of a field. -/
theorem texts_named (s : EnvironmentSection) {e : Value × Value} (h : ∃ name, e.1 = .text name) :
    ∃ name, (s.named e).1 = .text name := by
  obtain ⟨k, v⟩ := e
  obtain ⟨name, rfl⟩ := h
  unfold named
  simp only
  cases s.fields.find? fun f => Text.lowered f == Text.lowered name with
  | none => exact ⟨name, rfl⟩
  | some f => exact ⟨f, rfl⟩

theorem document_keyed {s : EnvironmentSection} {r : VariableRules} {es es' : Entries} {kind : MapKind}
    (h : es.Keyed) (hdocument : s.document r es = .map kind es') : es'.Keyed := by
  obtain ⟨-, rfl⟩ := Value.map.inj hdocument
  split
  · exact h
  · refine Entries.keyed_ofPairs fun e he => ?_
    obtain ⟨e', he', rfl⟩ := List.mem_map.mp he
    exact s.texts_named (h.texts e' he')

/-- **A section that variables give has texts as keys**, each of them once. -/
theorem read_keyed {s : EnvironmentSection} {r : VariableRules} {e : Environment} {kind : MapKind} {es : Entries}
    (h : s.read r e = .ok (some (.map kind es))) : es.Keyed := by
  unfold read at h
  simp only at h
  split at h
  case h_1 =>
    obtain ⟨single, hsingle, h⟩ := bind_eq_ok.mp h
    split at h
    · cases h
    · exact document_keyed (single_keyed Entries.keyed_nil hsingle) (Option.some.inj (Except.ok.inj h))
  case h_2 text _ =>
    split at h
    · cases h
    · obtain ⟨v, hv, h⟩ := bind_eq_ok.mp h
      cases v with
      | map kind' whole =>
        obtain ⟨single, hsingle, h⟩ := bind_eq_ok.mp h
        -- single variables are laid over the section that is given as a whole
        have hover : (Entries.update whole (Value.overlayEntries whole single)).Keyed :=
          (structuredValue_keyed hv).update
            (Value.texts_overlayEntries whole (single_keyed Entries.keyed_nil hsingle).texts)
        unfold Value.document at h
        rw [Value.overlay] at h
        exact document_keyed hover (Option.some.inj (Except.ok.inj h))
      | _ => cases h

end EnvironmentSection

/-! ## One section over another -/

namespace Settings

/-- The entry of a field in a section that is a mapping. -/
def fieldOf (field : String) : Option Value → Option Value
  | some (.map _ es) => Entries.get? field es
  | _ => none

/-- The entry of a field in the section that variables give, laid over the one of the file. -/
def layeredField (upper lower : Option Value) (field : String) : Option Value :=
  match fieldOf field upper with
  | some v => some (((fieldOf field lower).map fun b => Value.overlay b v).getD v)
  | none => fieldOf field lower

/-- What is put together of the two sections is a section that has the entries of both. -/
theorem layeredField_eq {upper lower : Option Value} {kind : MapKind} {d : Entries}
    (hkeyed : ∀ kind es, upper = some (.map kind es) → Entries.Keyed es)
    (h : (match upper with
      | some v => some ((lower.map fun b => Value.overlay b v).getD v)
      | none => lower) = some (.map kind d)) (field : String) :
    Entries.get? field d = layeredField upper lower field := by
  cases upper with
  | none =>
    obtain rfl : lower = some (.map kind d) := h
    rfl
  | some v =>
    by_cases hmap : ∃ kind' es, v = .map kind' es
    · obtain ⟨kind', es, rfl⟩ := hmap
      obtain ⟨hdistinct, htexts⟩ := hkeyed kind' es rfl
      have halone (hlower : fieldOf field lower = none) :
          Entries.get? field es = layeredField (some (.map kind' es)) lower field := by
        unfold layeredField
        rw [hlower, fieldOf]
        cases Entries.get? field es <;> rfl
      cases lower with
      | none =>
        obtain ⟨-, rfl⟩ := Value.map.inj (Option.some.inj h)
        exact halone rfl
      | some b =>
        have hover : Value.overlay b (.map kind' es) = .map kind d := Option.some.inj h
        cases b with
        | map _ base =>
          rw [Value.overlay] at hover
          obtain ⟨-, rfl⟩ := Value.map.inj hover
          exact Value.get?_overlay hdistinct htexts base field
        | _ =>
          unfold Value.overlay at hover
          obtain ⟨-, rfl⟩ := Value.map.inj hover
          exact halone rfl
    · -- what is no mapping would count alone
      have halone : v = .map kind d := by
        have hnone (lower : Value) : Value.overlay lower v = v :=
          Value.overlay_of_not_map lower fun kind' es hv => hmap ⟨kind', es, hv⟩
        cases lower with
        | none => exact Option.some.inj h
        | some b => exact (hnone b).symm.trans (Option.some.inj h)
      exact absurd ⟨kind, d, halone⟩ hmap

end Settings

namespace SettingsSource

open Settings (databaseSection sectionEntry layeredField fieldOf)

/-- **The fields of the database are read from the section that the variables give, laid over the one of the file**,
whatever rules for variables the file lays down. -/
theorem settings_layered {s : SettingsSource} {path : Option String} {settings : Settings}
    (h : s.settings path = .ok settings) :
    ∃ es rules given, s.document path = .ok es ∧ VariableRules.ofEntries es = .ok rules ∧
      databaseSection.read rules s.environment = .ok given ∧
      settings.database.ReadFrom (layeredField given (sectionEntry es databaseSection.name)) := by
  obtain ⟨es, layered, hes, hlayered, hchecked⟩ := settings_eq_ok.mp h
  obtain ⟨rules, given, hrules, hgiven, hentry⟩ := layered_eq_ok hlayered
  refine ⟨es, rules, given, hes, hrules, hgiven, ?_⟩
  rcases Settings.ofEntries_accepted hchecked with ⟨hnone, hdefault⟩ | ⟨kind, d, hsome, haccepted⟩
  · -- neither the variables nor the file give a section
    rw [hnone] at hentry
    cases given with
    | some v => cases hentry
    | none =>
      have habsent : sectionEntry es databaseSection.name = none := hentry.symm
      rw [hdefault, habsent]
      exact ⟨rfl, rfl, rfl, rfl, rfl⟩
  · have hread := DatabaseSettings.ofEntries_accepted haccepted
    have hkeyed : ∀ kind es, given = some (.map kind es) → Entries.Keyed es := by
      rintro kind es rfl
      exact EnvironmentSection.read_keyed hgiven
    rwa [funext (Settings.layeredField_eq hkeyed (hentry.symm.trans hsome))] at hread

end SettingsSource

/-! ## The bucket -/

/-- The text of the bucket that is configured: the one of the variables' section, and else the one of the file's. -/
def Settings.configuredBucket (upper lower : Option Value) : Option String :=
  ((fieldOf "bucket" upper).or (fieldOf "bucket" lower)).bind fun v => (Setting.text v).toOption

/-- The name if something in it is not blank. -/
def notBlank (name : Option String) : Option String :=
  name.filter fun s => !Text.isBlankText s

namespace DatabaseSettings

/-- A bucket that is taken is a text that is not blank. -/
theorem bucketOf_eq {v : Value} {bucket : Option String} (h : bucketOf v = .ok bucket) :
    bucket = notBlank (Setting.text v).toOption := by
  obtain ⟨given, hgiven, h⟩ := bind_eq_ok.mp h
  unfold Setting.orNull at hgiven
  split at hgiven
  case h_1 =>
    obtain rfl := Except.ok.inj hgiven
    exact (Except.ok.inj h).symm
  case h_2 =>
    obtain ⟨name, hname, rfl⟩ := map_eq_ok.mp hgiven
    obtain rfl := Except.ok.inj h
    rw [hname, Except.toOption, notBlank, Option.filter]
    cases Text.isBlankText name <;> rfl

end DatabaseSettings

/-- **The bucket of settings that load** is the text that is configured if it is not blank: the variables' if they give
the entry, and else the file's. -/
theorem DatabaseSettings.ReadFrom.bucket_eq {upper lower : Option Value} {d : DatabaseSettings}
    (h : d.ReadFrom (Settings.layeredField upper lower)) :
    d.bucket = notBlank (Settings.configuredBucket upper lower) := by
  have hread := h.bucket
  unfold Settings.layeredField at hread
  unfold Settings.configuredBucket
  cases hupper : Settings.fieldOf "bucket" upper with
  | none =>
    rw [hupper] at hread
    simp only [Option.none_or]
    cases hlower : Settings.fieldOf "bucket" lower with
    | none =>
      rw [hlower] at hread
      exact hread
    | some v =>
      rw [hlower] at hread
      exact DatabaseSettings.bucketOf_eq hread
  | some v =>
    rw [hupper] at hread
    have htaken : DatabaseSettings.bucketOf
        (((Settings.fieldOf "bucket" lower).map fun b => Value.overlay b v).getD v) = .ok d.bucket := hread
    have halone : ((Settings.fieldOf "bucket" lower).map fun b => Value.overlay b v).getD v = v := by
      cases hlower : Settings.fieldOf "bucket" lower with
      | none => rfl
      | some b =>
        refine Value.overlay_of_not_map b ?_
        rintro kind es rfl
        -- a mapping over anything is a mapping, which is no name
        obtain ⟨es', hmap⟩ := Value.overlay_map b kind es
        rw [hlower, Option.map_some, Option.getD_some, hmap] at htaken
        cases htaken
    rw [halone] at htaken
    exact DatabaseSettings.bucketOf_eq htaken

/-- Under the usual rules, and where variables give single fields only, the variables' bucket is the text of the
bucket's own variable. -/
theorem EnvironmentSection.fieldOf_read {e : Environment} {given : Option Value} (h : e.OnlyFields)
    (hgiven : Settings.databaseSection.read {} e = .ok given) (field : String) :
    Settings.fieldOf field given = (e.last? (DatabaseSettings.variableOf field)).map Value.text := by
  obtain ⟨es, hread, -, hget⟩ := read_fields h
  obtain rfl := Except.ok.inj (hread.symm.trans hgiven)
  rw [← hget]
  cases es <;> rfl

end FileDepot
