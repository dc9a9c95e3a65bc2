import FileDepot.Proofs.Settings.Variables
import FileDepot.Settings.File

/-!
# Variables over a file over defaults

The settings of the database are read field by field: from the variable of the field if it is set, else from the
entry of the file, and else they are the default. This takes a file that lays down no rules of its own for the
names of variables, since its entries are looked at for such rules before any variable is.

Contents:

* `Value.get?_overlay` — the entry of a key when one mapping is laid over another;
* `Setting.ReadAs`, `DatabaseSettings.ReadFrom` — a field, and the fields of the database, as they are read;
* `DatabaseSettings.ofEntries_accepted` — accepted fields have been read from their entries;
* `SettingsSource.document`, `SettingsSource.settings_eq` — the entries of a file, and the settings made of them;
* `SettingsSource.layered_database` — the entries of the database when the layers are put together;
* `SettingsSource.database_layers` — each field is read from the highest layer that has it.
-/

namespace FileDepot

/-! ## Layers -/

namespace Value

/-- A text laid over anything counts alone. -/
theorem overlay_text (lower : Value) (text : String) : overlay lower (.text text) = .text text := by
  rw [overlay]
  intro kind es h
  cases h

/-- **The entry of a key when one mapping is laid over another.** The upper mapping has its keys once and as
texts. -/
theorem get?_overlay {base upper : Entries} (hdistinct : upper.Distinct)
    (htexts : ∀ e ∈ upper, ∃ s, e.1 = .text s) (lower : Entries) (name : String) :
    (lower.update (overlayEntries base upper)).get? name =
      match upper.get? name with
      | some v => some (((base.get? name).map fun b => overlay b v).getD v)
      | none => lower.get? name := by
  induction upper generalizing lower with
  | nil => rfl
  | cons e upper ih =>
    obtain ⟨k, v⟩ := e
    obtain ⟨⟨s, rfl⟩, hrest⟩ := List.forall_mem_cons.mp htexts
    obtain ⟨hnew, hdistinct⟩ := List.pairwise_cons.mp hdistinct
    have hstep : lower.update (overlayEntries base ((.text s, v) :: upper)) =
        (Entries.put (.text s) (((base.get? s).map fun b => overlay b v).getD v) lower).update
          (overlayEntries base upper) := by
      rw [overlayEntries, Entries.get?]
      cases Entries.lookup? (.text s) base <;> rfl
    rw [hstep, ih hdistinct hrest, Entries.get?_cons, Entries.get?_put]
    by_cases hname : s = name
    · -- the key comes once, so that nothing behind it changes the entry
      subst hname
      have hnone : Entries.get? s upper = none := by
        refine Entries.get?_eq_none fun e he => ?_
        have hdiffers := hnew e.1 (List.mem_map_of_mem he)
        simpa [same] using hdiffers
      simp [hnone, Value.text?]
    · simp [hname, Value.text?]

end Value

/-! ## Fields -/

namespace Checked

theorem map_eq_accepted {α β : Type} {f : α → β} {x : Checked α} {b : β} :
    f <$> x = .accepted b ↔ ∃ a, x = .accepted a ∧ f a = b := by
  cases x with
  | accepted a =>
    show Checked.accepted (f a) = .accepted b ↔ _
    simp
  | refused issues =>
    show Checked.refused issues = .accepted b ↔ _
    simp

theorem seq_eq_accepted {α β : Type} {f : Checked (α → β)} {x : Checked α} {b : β} :
    f <*> x = .accepted b ↔ ∃ g a, f = .accepted g ∧ x = .accepted a ∧ g a = b := by
  show f.apply x = .accepted b ↔ _
  cases f <;> cases x <;> simp [apply]

end Checked

/-- A field as it is read: from its value if there is one, which has to be acceptable, and else the default. -/
def Setting.ReadAs {α : Type} (given : Option Value) (absent : α) (take : Value → Except Rule α) (a : α) : Prop :=
  match given with
  | none => a = absent
  | some v => take v = .ok a

theorem Setting.ReadAs.unique {α : Type} {given : Option Value} {absent : α} {take : Value → Except Rule α}
    {a b : α} (ha : ReadAs given absent take a) (hb : ReadAs given absent take b) : a = b := by
  cases given with
  | none => exact Eq.trans ha (Eq.symm hb)
  | some v => exact Except.ok.inj (Eq.trans (Eq.symm ha) hb)

theorem Setting.field_eq_accepted {α : Type} {place : List String} {es : Entries} {name : String}
    {absent a : α} {take : Value → Except Rule α} :
    field place es name absent take = .accepted a ↔ ReadAs (es.get? name) absent take a := by
  unfold field fieldWith ReadAs
  cases es.get? name with
  | none => simp [eq_comm]
  | some v =>
    simp only [checked]
    cases take v <;> simp

namespace DatabaseSettings

/-- The fields as they are read, each from the value that is given for it. -/
structure ReadFrom (given : String → Option Value) (d : DatabaseSettings) : Prop where
  address : Setting.ReadAs (given "uri") "mongodb://localhost:27017" Setting.text d.address
  database : Setting.ReadAs (given "database") "pygridfs" nameOf d.database
  bucket : Setting.ReadAs (given "bucket") none bucketOf d.bucket
  chunkSize : Setting.ReadAs (given "chunk_size_bytes") none
    (Setting.orNull (Setting.wholeBetween 1 largestChunk)) d.chunkSize
  timeout : Setting.ReadAs (given "connect_timeout_ms") 20000 (Setting.wholeFrom 1) d.timeout

/-- Accepted fields have been read from their entries. -/
theorem ofEntries_accepted {place : List String} {es : Entries} {d : DatabaseSettings}
    (h : ofEntries place es = .accepted d) : d.ReadFrom fun field => es.get? field := by
  unfold ofEntries at h
  obtain ⟨withTimeout, timeout, hfour, htimeout, rfl⟩ := Checked.seq_eq_accepted.mp h
  obtain ⟨withChunkSize, chunkSize, hthree, hchunkSize, rfl⟩ := Checked.seq_eq_accepted.mp hfour
  obtain ⟨withBucket, bucket, htwo, hbucket, rfl⟩ := Checked.seq_eq_accepted.mp hthree
  obtain ⟨withDatabase, database, hone, hdatabase, rfl⟩ := Checked.seq_eq_accepted.mp htwo
  obtain ⟨address, haddress, rfl⟩ := Checked.map_eq_accepted.mp hone
  exact {
    address := Setting.field_eq_accepted.mp haddress
    database := Setting.field_eq_accepted.mp hdatabase
    bucket := Setting.field_eq_accepted.mp hbucket
    chunkSize := Setting.field_eq_accepted.mp hchunkSize
    timeout := Setting.field_eq_accepted.mp htimeout }

/-- A field that is read from the same value is the same, whatever the other fields are read from. -/
theorem ReadFrom.get?_congr {given given' : String → Option Value} {d d' : DatabaseSettings}
    (h : d.ReadFrom given) (h' : d'.ReadFrom given') {field : String} (hfield : given field = given' field) :
    d.entries.get? field = d'.entries.get? field := by
  simp only [entries, Entries.get?_cons, Value.text?, Option.some.injEq]
  split_ifs with haddress hdatabase hbucket hchunkSize htimeout
  · subst haddress
    rw [h.address.unique (hfield ▸ h'.address)]
  · subst hdatabase
    rw [h.database.unique (hfield ▸ h'.database)]
  · subst hbucket
    rw [h.bucket.unique (hfield ▸ h'.bucket)]
  · subst hchunkSize
    rw [h.chunkSize.unique (hfield ▸ h'.chunkSize)]
  · subst htimeout
    rw [h.timeout.unique (hfield ▸ h'.timeout)]
  · rfl

end DatabaseSettings

/-! ## The layers put together -/

namespace Settings

/-- The entries of the database in a file: none if the section is absent, and nothing if it is no mapping. -/
def databaseEntries (es : Entries) : Option Entries :=
  match sectionEntry es databaseSection.name with
  | none => some []
  | some (.map _ sub) => some sub
  | some _ => none

theorem databaseEntries_eq_some {es sub : Entries} (h : databaseEntries es = some sub) :
    (sectionEntry es databaseSection.name = none ∧ sub = []) ∨
      ∃ kind, sectionEntry es databaseSection.name = some (.map kind sub) := by
  unfold databaseEntries at h
  cases hsection : sectionEntry es databaseSection.name with
  | none =>
    rw [hsection] at h
    exact Or.inl ⟨rfl, (Option.some.inj h).symm⟩
  | some v =>
    rw [hsection] at h
    cases v with
    | map kind es' =>
      obtain rfl := Option.some.inj h
      exact Or.inr ⟨kind, rfl⟩
    | _ => cases h

theorem get?_sectionEntries (es : Entries) :
    (sectionEntries es).get? databaseSection.name = sectionEntry es databaseSection.name := by
  unfold sectionEntries
  rw [List.filterMap_cons, List.filterMap_cons, List.filterMap_nil]
  cases sectionEntry es databaseSection.name <;> cases sectionEntry es loggingSection.name <;> rfl

/-- The settings have been read from the entries of their sections. -/
theorem ofEntries_accepted {es : Entries} {settings : Settings} (h : ofEntries es = .accepted settings) :
    (es.get? databaseSection.name = none ∧ settings.database = {}) ∨
      ∃ kind sub, es.get? databaseSection.name = some (.map kind sub) ∧
        DatabaseSettings.ofEntries [databaseSection.name] sub = .accepted settings.database := by
  unfold ofEntries at h
  obtain ⟨withLogging, logging, hone, -, rfl⟩ := Checked.seq_eq_accepted.mp h
  obtain ⟨database, hdatabase, rfl⟩ := Checked.map_eq_accepted.mp hone
  unfold Setting.fieldWith at hdatabase
  have hname : databaseSection.name = "mongo" := rfl
  rw [hname]
  cases hentry : es.get? "mongo" with
  | none =>
    rw [hentry] at hdatabase
    cases hdatabase
    exact Or.inl ⟨rfl, rfl⟩
  | some v =>
    rw [hentry] at hdatabase
    cases v with
    | map kind sub => exact Or.inr ⟨kind, sub, rfl, hdatabase⟩
    | _ => cases hdatabase

end Settings

namespace SettingsSource

open DatabaseSettings (fieldNames variableOf)
open Settings (databaseSection databaseEntries)

/-- The entries of the file that is read. -/
def document (s : SettingsSource) (path : Option String) : Except Failure Entries := do
  let path ← s.filePath path
  Settings.fileEntries path (← s.files.read path)

/-- The settings are those of the entries of the file with the variables laid over them. -/
theorem settings_eq (s : SettingsSource) (path : Option String) :
    s.settings path = (s.document path >>= fun es => s.layered es >>= fun layered =>
      match Settings.ofEntries layered with
      | .accepted settings => .ok settings
      | .refused issues => .error (.rejectedFile issues)) := by
  unfold settings document
  cases s.filePath path with
  | error f => rfl
  | ok found =>
    simp only [bind, Except.bind]
    cases s.files.read found <;> rfl

theorem settings_eq_ok {s : SettingsSource} {path : Option String} {settings : Settings} :
    s.settings path = .ok settings ↔
      ∃ es layered, s.document path = .ok es ∧ s.layered es = .ok layered ∧
        Settings.ofEntries layered = .accepted settings := by
  rw [settings_eq]
  simp only [bind_eq_ok]
  constructor
  · rintro ⟨es, hes, layered, hlayered, hchecked⟩
    refine ⟨es, layered, hes, hlayered, ?_⟩
    cases hsettings : Settings.ofEntries layered with
    | accepted settings =>
      rw [hsettings] at hchecked
      rw [Except.ok.inj hchecked]
    | refused issues =>
      rw [hsettings] at hchecked
      cases hchecked
  · rintro ⟨es, layered, hes, hlayered, hsettings⟩
    refine ⟨es, hes, layered, hlayered, ?_⟩
    rw [hsettings]

/-- The value of a field of the database in the highest layer that has one: the text of its variable, or its
entry in the file. -/
def highest? (e : Environment) (sub : Entries) (field : String) : Option Value :=
  ((e.last? (variableOf field)).map Value.text).or (sub.get? field)

/-- What the variables give is laid over what the file gives, section by section. -/
theorem layered_eq_ok {s : SettingsSource} {es layered : Entries} (h : s.layered es = .ok layered) :
    ∃ rules database, VariableRules.ofEntries es = .ok rules ∧ databaseSection.read rules s.environment = .ok database ∧
      layered.get? databaseSection.name =
        match database with
        | some v => some (((Settings.sectionEntry es databaseSection.name).map fun b => Value.overlay b v).getD v)
        | none => Settings.sectionEntry es databaseSection.name := by
  unfold SettingsSource.layered at h
  split at h
  · obtain ⟨rules, hrules, h⟩ := bind_eq_ok.mp h
    obtain ⟨upper, hupper, h⟩ := bind_eq_ok.mp h
    unfold Settings.environmentEntries at hupper
    obtain ⟨database, hdatabase, hupper⟩ := bind_eq_ok.mp hupper
    obtain ⟨logging, -, hupper⟩ := bind_eq_ok.mp hupper
    have hlayered : layered = (Settings.sectionEntries es).update
        (Value.overlayEntries (Settings.sectionEntries es) upper) := by
      unfold Value.document at h
      rw [Value.overlay] at h
      exact (Except.ok.inj h).symm
    obtain rfl := Except.ok.inj hupper
    refine ⟨rules, database, hrules, hdatabase, ?_⟩
    rw [hlayered, Value.get?_overlay, Settings.get?_sectionEntries]
    · cases database <;> cases logging <;> rfl
    · have hother : (Value.text databaseSection.name).same (.text Settings.loggingSection.name) = false := by
        decide +kernel
      cases database <;> cases logging <;> simp [Entries.Distinct, hother]
    · cases database <;> cases logging <;> simp
  · cases h

/-- **The entries of the database when the layers are put together**: each field has the value of the highest
layer that has one. -/
theorem layered_database {s : SettingsSource} {es sub layered : Entries} (hvariables : s.environment.OnlyFields)
    (hrules : VariableRules.ofEntries es = .ok {}) (hsub : databaseEntries es = some sub)
    (h : s.layered es = .ok layered) :
    (layered.get? databaseSection.name = none ∧ ∀ field, highest? s.environment sub field = none) ∨
      ∃ kind d, layered.get? databaseSection.name = some (.map kind d) ∧
        ∀ field, Entries.get? field d = highest? s.environment sub field := by
  obtain ⟨rules, database, hrules', hread, hentry⟩ := layered_eq_ok h
  obtain rfl : {} = rules := Except.ok.inj (hrules.symm.trans hrules')
  obtain ⟨given, hgiven, hfields, hget⟩ := EnvironmentSection.read_fields hvariables
  obtain rfl := Except.ok.inj (hread.symm.trans hgiven)
  unfold highest?
  rw [hentry]
  by_cases hempty : given.isEmpty = true
  · -- no variable is set, so that the file counts alone
    have hnone (field : String) : s.environment.last? (variableOf field) = none := by
      have hlast := hget field
      rw [List.isEmpty_iff.mp hempty] at hlast
      exact Option.map_eq_none_iff.mp hlast.symm
    simp only [hempty, if_true, hnone]
    rcases Settings.databaseEntries_eq_some hsub with ⟨hsection, rfl⟩ | ⟨kind, hsection⟩
    · exact Or.inl ⟨hsection, fun _ => rfl⟩
    · exact Or.inr ⟨kind, sub, hsection, fun _ => rfl⟩
  · simp only [hempty, Bool.false_eq_true, if_false]
    rcases Settings.databaseEntries_eq_some hsub with ⟨hsection, rfl⟩ | ⟨kind, hsection⟩
    · rw [hsection]
      refine Or.inr ⟨.plain, given, rfl, fun field => ?_⟩
      rw [hget]
      exact Option.or_none.symm
    · rw [hsection]
      refine Or.inr ⟨.plain, Entries.update sub (Value.overlayEntries sub given), ?_, fun field => ?_⟩
      · show some (Value.overlay (.map kind sub) (.map .plain given)) = _
        rw [Value.overlay]
      · rw [Value.get?_overlay hfields.distinct fun e he => (hfields.names e he).imp fun _ h => h.2, hget]
        cases s.environment.last? (variableOf field) with
        | none => rfl
        | some text =>
          show some (((Entries.get? field sub).map fun b => Value.overlay b (.text text)).getD (.text text)) = _
          simp only [Value.overlay_text]
          cases Entries.get? field sub <;> rfl

/-- The variable for the path of the file is not that of a field. -/
theorem pathVariable_ne (field : String) : Text.lowered Settings.pathVariable ≠ variableOf field := by
  have hpath : (Text.lowered Settings.pathVariable).toList[9]? = some 'c' := by decide +kernel
  have hsplit : (variableOf field).toList = "pygridfs_mongo__".toList ++ field.toList := String.toList_append
  have hfield : (variableOf field).toList[9]? = some 'm' := by
    rw [hsplit, List.getElem?_append_left (by decide +kernel)]
    decide +kernel
  intro h
  rw [h, hfield] at hpath
  exact absurd hpath (by decide)

/-- Setting the variable of a field does not change which file is read. -/
theorem document_set {s : SettingsSource} {e : Environment} {name text field : String}
    (hname : Text.lowered name = variableOf field) (h : s.environment.set name text = .ok e)
    (path : Option String) : document { s with environment := e } path = s.document path := by
  have hother : Settings.pathVariable ≠ name := by
    rintro rfl
    exact pathVariable_ne field hname
  have hvalue := Environment.value?_set h hother
  have hfound : filePath { s with environment := e } path = s.filePath path := by
    unfold filePath findFile candidates
    simp only [hvalue]
  unfold document
  rw [hfound]

/-- The fields of the database are read from the highest layer that has them. -/
theorem settings_readFrom {s : SettingsSource} {path : Option String} {es sub : Entries} {settings : Settings}
    (hfile : s.document path = .ok es) (hrules : VariableRules.ofEntries es = .ok {})
    (hsub : databaseEntries es = some sub) (hvariables : s.environment.OnlyFields)
    (h : s.settings path = .ok settings) : settings.database.ReadFrom (highest? s.environment sub) := by
  obtain ⟨es', layered, hes, hlayered, hchecked⟩ := settings_eq_ok.mp h
  obtain rfl := Except.ok.inj (hfile.symm.trans hes)
  rcases layered_database hvariables hrules hsub hlayered with ⟨hnone, hgiven⟩ | ⟨kind, d, hentry, hgiven⟩
  · -- there is no section at all, so that every field is the default
    rcases Settings.ofEntries_accepted hchecked with ⟨-, hdefault⟩ | ⟨kind, d, hentry, -⟩
    · have hempty : DatabaseSettings.ReadFrom (fun _ => none) {} := ⟨rfl, rfl, rfl, rfl, rfl⟩
      rw [hdefault, funext hgiven]
      exact hempty
    · rw [hnone] at hentry
      cases hentry
  · rcases Settings.ofEntries_accepted hchecked with ⟨hnone, -⟩ | ⟨kind', d', hentry', haccepted⟩
    · rw [hentry] at hnone
      cases hnone
    · obtain ⟨rfl, rfl⟩ := Value.map.inj (Option.some.inj (hentry.symm.trans hentry'))
      have hread := DatabaseSettings.ofEntries_accepted haccepted
      rwa [funext hgiven] at hread

/-- **Variables over the file over the defaults, field by field.** Each field of the database is read from its
variable if that is set, else from its entry in the file if there is one, and else it is the default. So setting
the variable of one field leaves the others as they are, if the settings can be read before and after. The file lays
down no rules, neither for the variables nor for further places to read from. -/
theorem database_layers {s : SettingsSource} {path : Option String} {es sub : Entries} {settings : Settings}
    (hfile : s.document path = .ok es) (hrules : VariableRules.ofEntries es = .ok {})
    (hsub : databaseEntries es = some sub) (hvariables : s.environment.OnlyFields)
    (h : s.settings path = .ok settings) :
    settings.database.ReadFrom (highest? s.environment sub) ∧
      ∀ field ∈ fieldNames, ∀ name text e settings', Text.lowered name = variableOf field →
        s.environment.set name text = .ok e →
          SettingsSource.settings { s with environment := e } path = .ok settings' →
            settings'.database.ReadFrom (highest? e sub) ∧
              ∀ other, other ≠ field →
                settings'.database.entries.get? other = settings.database.entries.get? other := by
  have hread := settings_readFrom hfile hrules hsub hvariables h
  refine ⟨hread, ?_⟩
  intro field hfield name text e settings' hname hset h'
  have hfile' := (document_set hname hset path).trans hfile
  have hread' : settings'.database.ReadFrom (highest? e sub) :=
    settings_readFrom hfile' hrules hsub (hvariables.set hfield hname hset) h'
  refine ⟨hread', fun other hother => hread'.get?_congr hread ?_⟩
  have hdiffers : Text.lowered name ≠ variableOf other := by
    rw [hname]
    exact fun h => hother (DatabaseSettings.variableOf_inj h).symm
  unfold highest?
  rw [Environment.last?_set hset hdiffers]

/-- A variable over one of two entries of a file: the other entry is read from the file. Setting the variable of
the address as well leaves both as they are. -/
theorem database_layers_of_bucket :
    let content := "\"mongo\":\n  \"bucket\": \"photos\"\n  \"database\": \"media\"\n".toUTF8.toList
    let s : SettingsSource := {
      files := { nodes := [(["c.yaml"], .file content)] }
      environment := ⟨[("PYGRIDFS_MONGO__BUCKET", "scans")]⟩
      packaged := "" }
    let e : Environment := ⟨[("PYGRIDFS_MONGO__BUCKET", "scans"), ("PYGRIDFS_MONGO__URI", "mongodb://db")]⟩
    ∃ sub settings settings', s.settings (some "/c.yaml") = .ok settings ∧
      settings.database = { database := "media", bucket := some "scans" } ∧
      settings.database.ReadFrom (highest? s.environment sub) ∧
      SettingsSource.settings { s with environment := e } (some "/c.yaml") = .ok settings' ∧
      settings'.database.address = "mongodb://db" ∧
      settings'.database.entries.get? "bucket" = settings.database.entries.get? "bucket" ∧
      settings'.database.entries.get? "database" = settings.database.entries.get? "database" := by
  intro content s e
  have hbefore : (s.settings (some "/c.yaml")).map (·.database) =
      .ok { database := "media", bucket := some "scans" } := by decide +kernel
  have hafter : (SettingsSource.settings { s with environment := e } (some "/c.yaml")).map
      (·.database.address) = .ok "mongodb://db" := by decide +kernel
  have hplain : ((s.document (some "/c.yaml")) >>= VariableRules.ofEntries) = .ok {} := by decide +kernel
  have hsection : ((s.document (some "/c.yaml")).map fun es => (databaseEntries es).isSome) = .ok true := by
    decide +kernel
  have hset : s.environment.set "PYGRIDFS_MONGO__URI" "mongodb://db" = .ok e := rfl
  have hvariables : s.environment.OnlyFields := by
    intro v hv
    obtain rfl := List.mem_singleton.mp hv
    have hlowered : Text.lowered "PYGRIDFS_MONGO__BUCKET" = variableOf "bucket" := by decide +kernel
    rw [hlowered]
    refine ⟨DatabaseSettings.variableOf_ne _, fun key hkey => ?_⟩
    rw [← DatabaseSettings.variableOf_inj hkey]
    decide
  -- what has been computed is all that is needed of the file and of the variables
  clear_value s e
  obtain ⟨es, hfile, hrules⟩ := bind_eq_ok.mp hplain
  obtain ⟨es', hfile', hsome⟩ := map_eq_ok.mp hsection
  obtain rfl := Except.ok.inj (hfile.symm.trans hfile')
  obtain ⟨sub, hsub⟩ := Option.isSome_iff_exists.mp hsome
  obtain ⟨settings, hsettings, hdatabase⟩ := map_eq_ok.mp hbefore
  obtain ⟨settings', hsettings', haddress⟩ := map_eq_ok.mp hafter
  obtain ⟨hread, hothers⟩ := database_layers hfile hrules hsub hvariables hsettings
  obtain ⟨-, hkept⟩ := hothers "uri" (by decide) _ _ e settings' (by decide +kernel) hset hsettings'
  exact ⟨sub, settings, settings', hsettings, hdatabase, hread, hsettings', haddress,
    hkept "bucket" (by decide), hkept "database" (by decide)⟩

end SettingsSource

end FileDepot
