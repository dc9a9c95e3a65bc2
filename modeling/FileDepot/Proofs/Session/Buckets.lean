import FileDepot.Proofs.Command.Lines
import FileDepot.Proofs.Session.Opening
import FileDepot.Proofs.Settings.Sections
import FileDepot.Proofs.Store.OwnBucket

/-!
# The bucket of a depot

The name of the bucket is looked at in several places: when the settings are read, when a depot is opened with another
name, and when the bucket is asked for. Together they ask for the other name if it is not empty, and else for the
configured one if it is not blank, and else for the default one. So another name that is blank, but not empty, counts
as a name, which a blank one in the settings does not.

Contents:

* `bucketChoice`, `firstNotBlank` — the name that is asked for, and the first one that is not blank;
* `bucketChoice_eq_iff` — where they are the same;
* `Depot.bucketName_described` — the bucket of the depot that settings describe;
* `Desk.openDepot_answer`, `CommandLine.run_confined` — the depot of a line, and what the line touches;
* `Session.bucket_in_use` — the bucket in use, from the file and the variables to the store.
-/

namespace FileDepot

/-! ## The choice -/

/-- The name of the bucket that is asked for: the other name if it is not empty, else the configured one if it is not
blank, else the default one. -/
def bucketChoice (other configured : Option String) : String :=
  ((other.filter fun name => name ≠ "").or (notBlank configured)).getD defaultBucket

/-- The first of the two names that is not blank, else the default one. -/
def firstNotBlank (other configured : Option String) : String :=
  ((notBlank other).or (notBlank configured)).getD defaultBucket

theorem bucketChoice_of_ne {name : String} (h : name ≠ "") (configured : Option String) :
    bucketChoice (some name) configured = name := by
  simp [bucketChoice, Option.filter, h]

theorem bucketChoice_empty (configured : Option String) :
    bucketChoice (some "") configured = bucketChoice none configured := rfl

theorem notBlank_eq_some {name : Option String} {s : String} :
    notBlank name = some s ↔ name = some s ∧ Text.isBlankText s = false := by
  simp [notBlank, Option.filter_eq_some_iff]

/-- The first name that is not blank is not blank. -/
theorem isBlankText_firstNotBlank (other configured : Option String) :
    Text.isBlankText (firstNotBlank other configured) = false := by
  unfold firstNotBlank
  cases hother : notBlank other with
  | some s => exact (notBlank_eq_some.mp hother).2
  | none =>
    cases hconfigured : notBlank configured with
    | some s => exact (notBlank_eq_some.mp hconfigured).2
    | none => decide

/-- **The first name that is not blank is asked for, unless the other name is blank and not empty.** -/
theorem bucketChoice_eq_iff {other configured : Option String} :
    bucketChoice other configured = firstNotBlank other configured ↔
      ∀ name, other = some name → name ≠ "" → Text.isBlankText name = false := by
  constructor
  · rintro h name rfl hname
    rw [← bucketChoice_of_ne hname configured, h]
    exact isBlankText_firstNotBlank _ _
  · intro h
    cases other with
    | none => rfl
    | some name =>
      by_cases hname : name = ""
      · subst hname
        rfl
      · have hnotBlank : notBlank (some name) = some name := notBlank_eq_some.mpr ⟨rfl, h name rfl hname⟩
        rw [bucketChoice_of_ne hname, firstNotBlank, hnotBlank]
        rfl

/-! ## The depot -/

/-- The depot that settings describe asks for the chosen bucket. -/
theorem Depot.bucketName_described {d : DatabaseSettings} {configured : Option String}
    (h : d.bucket = notBlank configured) (other : Option String) (given : Option Connection) :
    (Depot.described d other given).template.bucketName = bucketChoice other configured := by
  have hconfigured : Connection.bucketOf d.bucket = (notBlank configured).getD defaultBucket := by
    rw [h]
    cases hname : notBlank configured with
    | none => rfl
    | some s =>
      have hne : s ≠ "" := by
        rintro rfl
        exact absurd (notBlank_eq_some.mp hname).2 (by decide)
      simp [Connection.bucketOf, hne]
  show Connection.bucketOf (d.bucketOr other) = _
  cases other with
  | none => exact hconfigured
  | some name =>
    by_cases hname : name = ""
    · subst hname
      exact hconfigured
    · rw [bucketChoice_of_ne hname]
      simp [DatabaseSettings.bucketOr, hname, Connection.bucketOf]

/-! ## Lines -/

/-- Where no depot is open, the one of the session is opened. -/
theorem Desk.openDepot_answer {d : Desk} (h : d.depot = none) (config bucket : Option String) :
    ((openDepot config bucket).run d).1 = ((Session.open config bucket).run d.session).1 := by
  rw [openDepot, openDepotTelling_run, h]
  simp only [Session.open]
  split
  next hopened => exact hopened.symm
  next hopened => exact hopened.symm

/-- What a command does to the store it does through its template. -/
theorem Command.through_of_action? {c : Command} {t : Template} {files : FileTree} {a : Store.Action}
    (h : c.action? t files = some a) : a.through? = some t := by
  unfold action? at h
  split at h
  · split at h
    · obtain rfl := Option.some.inj h
      rfl
    · cases h
  · obtain rfl := Option.some.inj h
    rfl
  · split at h
    · obtain ⟨q, -, rfl⟩ := Option.map_eq_some_iff.mp h
      rfl
    · obtain rfl := Option.some.inj h
      rfl
  · obtain ⟨q, -, rfl⟩ := Option.map_eq_some_iff.mp h
    rfl

/-- A line is confined to the bucket of the depot that is opened for it. -/
theorem CommandLine.run_confined {d : Desk} {line : List String} {l : CommandLine} {depot : Depot}
    (hread : CommandLine.read d.session.files line = .ok l)
    (hopen : ((Desk.openDepot l.config l.bucket).run d).1 = .ok depot) :
    Store.Confined depot.template.bucketName d.store ((run line).run d).2.store := by
  rw [run_store]
  cases haction : action? d line with
  | none => exact .refl _ _
  | some a =>
    refine Store.Action.confined depot.template.keepsTo ?_ d.store
    unfold action? at haction
    rcases hrun : (Desk.openDepot l.config l.bucket).run d with ⟨answer, d'⟩
    rw [hrun] at hopen
    obtain rfl : answer = .ok depot := hopen
    simp only [hread, hrun] at haction
    split at haction
    · cases haction
    · exact Command.through_of_action? haction

/-! ## From the settings to the store -/

namespace Session

open DatabaseSettings (variableOf)
open Settings (databaseSection sectionEntry configuredBucket fieldOf)

/-- **The bucket in use.** For settings that load, the configured bucket is the text that the variables give for it, and
else the text in the file. A depot that is opened with them, under any other name for the bucket, has a template that
keeps to the chosen bucket, and so does a command line: it asks for no other bucket and changes no other one. The chosen
bucket is that of the first name that is not blank, unless the other name is blank and not empty. -/
theorem bucket_in_use {source : SettingsSource} {path : Option String} {settings : Settings}
    (h : source.settings path = .ok settings) :
    ∃ es rules given, source.document path = .ok es ∧ VariableRules.ofEntries es = .ok rules ∧
      databaseSection.read rules source.environment = .ok given ∧
      (rules = {} → source.environment.OnlyFields →
        fieldOf "bucket" given = (source.environment.last? (variableOf "bucket")).map Value.text) ∧
      let configured := configuredBucket given (sectionEntry es databaseSection.name)
      settings.database.bucket = notBlank configured ∧
      (∀ s t config, (load config).run s = (.ok settings, t) →
        ((setUpLogging settings.logging).run t).1 = .ok () → ∀ other connection,
          ∃ depot, ((Session.open config other connection).run s).1 = .ok depot ∧
            depot.template.bucketName = bucketChoice other configured ∧
            depot.template.KeepsTo (bucketChoice other configured) ∧
            ∀ actions : List Store.Action, (∀ a ∈ actions, a.through? = some depot.template) → ∀ store,
              Store.Confined (bucketChoice other configured) store (actions.foldl Store.Action.after store)) ∧
      (∀ d t line l, d.depot = none → CommandLine.read d.session.files line = .ok l →
        (load l.config).run d.session = (.ok settings, t) → ((setUpLogging settings.logging).run t).1 = .ok () →
          Store.Confined (bucketChoice l.bucket configured) d.store ((CommandLine.run line).run d).2.store) ∧
      ∀ other, bucketChoice other configured = firstNotBlank other configured ↔
        ∀ name, other = some name → name ≠ "" → Text.isBlankText name = false := by
  obtain ⟨es, rules, given, hes, hrules, hgiven, hread⟩ := SettingsSource.settings_layered h
  have hsound := SettingsSource.settings_sound h
  have hbucket := hread.bucket_eq
  have hopens {s t : Session} {config : Option String} (hload : (load config).run s = (.ok settings, t))
      (hlogged : ((setUpLogging settings.logging).run t).1 = .ok ()) (other : Option String)
      (connection : Option Connection) : ((Session.open config other connection).run s).1 =
        .ok (Depot.described settings.database other connection) := by
    rw [open_of_loaded hsound hload, hlogged]
    rfl
  refine ⟨es, rules, given, hes, hrules, hgiven, ?_, hbucket, ?_, ?_, fun other => bucketChoice_eq_iff⟩
  · rintro rfl hfields
    exact EnvironmentSection.fieldOf_read hfields hgiven "bucket"
  · intro s t config hload hlogged other connection
    have hname := Depot.bucketName_described hbucket other connection
    have hkeeps := (Depot.described settings.database other connection).template.keepsTo
    rw [hname] at hkeeps
    exact ⟨_, hopens hload hlogged other connection, hname, hkeeps, fun actions hthrough store =>
      Store.Confined.run hkeeps hthrough store⟩
  · intro d t line l hdepot hline hload hlogged
    have hopen := (Desk.openDepot_answer hdepot l.config l.bucket).trans (hopens hload hlogged l.bucket none)
    have hconfined := CommandLine.run_confined hline hopen
    rwa [Depot.bucketName_described hbucket] at hconfined

/-- A variable counts before the file. An empty other name leaves it so, and a blank one is asked for as it is. -/
theorem bucket_in_use_blank :
    let content := "\"mongo\":\n  \"bucket\": \"photos\"\n".toUTF8.toList
    let s : Session := seeing {} {
      files := { nodes := [(["c.yaml"], .file content)] }
      environment := ⟨[("PYGRIDFS_MONGO__BUCKET", "scans")]⟩
      packaged := "" }
    ∃ depot depot', ((Session.open (some "/c.yaml") (some "")).run s).1 = .ok depot ∧
      depot.template.bucketName = "scans" ∧
      ((Session.open (some "/c.yaml") (some " ")).run s).1 = .ok depot' ∧ depot'.template.bucketName = " " := by
  intro content s
  have hrun : ((do
      let settings ← load (some "/c.yaml")
      setUpLogging settings.logging
      return settings.database.bucket : SessionM (Option String)).run s).1 = .ok (some "scans") := by decide +kernel
  -- what has been computed is all that is needed of the file and of the variables
  clear_value s
  have hload := @load_of_needed s (some "/c.yaml") rfl
  cases hsettings : s.source.settings (some "/c.yaml") with
  | error f =>
    rw [hsettings] at hload
    rw [Step.run_bind, hload] at hrun
    cases hrun
  | ok settings =>
    rw [hsettings] at hload
    rw [Step.run_bind, hload] at hrun
    simp only at hload hrun
    rw [Step.run_bind] at hrun
    rcases hset : (setUpLogging settings.logging).run { s with holder := ⟨some settings, some "/c.yaml"⟩ } with
      ⟨answer, t⟩
    rw [hset] at hrun
    cases answer with
    | error f => cases hrun
    | ok _ =>
      have hvalue : settings.database.bucket = some "scans" := Except.ok.inj hrun
      obtain ⟨es, rules, given, -, -, -, -, hbucket, hopens, -, -⟩ := bucket_in_use hsettings
      have hlogged := congrArg Prod.fst hset
      obtain ⟨depot, hdepot, hname, -, -⟩ := hopens _ _ _ hload hlogged (some "") none
      obtain ⟨depot', hdepot', hname', -, -⟩ := hopens _ _ _ hload hlogged (some " ") none
      rw [bucketChoice_empty, bucketChoice, ← hbucket, hvalue] at hname
      rw [bucketChoice_of_ne (by decide)] at hname'
      exact ⟨depot, depot', hdepot, hname, hdepot', hname'⟩

end Session

end FileDepot
