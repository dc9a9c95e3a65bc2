import FileDepot.Proofs.Settings.Held
import FileDepot.Proofs.Settings.Sound
import FileDepot.Proofs.Store.Steps

/-!
# Opening a depot

The connection and the template check what they are made of once more, each by rules of its own. Settings that
have been accepted pass these checks, so that a depot opens unless its settings cannot be loaded or its logging
cannot be set up.

Contents:

* `Session.Reached`, `Session.Reached.accepted` — what a session holds has been accepted;
* `Depot.described` — the depot that settings describe;
* `Session.openUnchecked` — an opening without checks;
* `Connection.ofSettings_sound`, `Session.open_of_loaded`, `Session.open_run` — no check stops what has been
  accepted;
* `Template.store_chunkSize` — an upload sends the chunk size of its template;
* `Session.open_of_accepted` — all of this together.
-/

namespace FileDepot

/-! ## What a session holds -/

namespace Session

/-- The sessions that uses of the settings and openings lead to. What happens apart from them leaves what is
held, so that files, variables and logging may be any. -/
inductive Reached : Session → Prop
  | start {s : Session} (h : s.holder = {}) : Reached s
  | use {s : Session} (h : Reached s) (u : SettingsUse) : Reached (s.afterUse u)
  | «open» {s : Session} (h : Reached s) (path bucket : Option String) (given : Option Connection) :
    Reached ((Session.open path bucket given).run s).2
  | apart {s t : Session} (h : Reached s) (hholder : t.holder = s.holder) : Reached t

/-- What is held has been accepted at some time. -/
def Accepted (h : SettingsHolder) : Prop :=
  ∀ settings, h.settings = some settings →
    ∃ (source : SettingsSource) (path : Option String), source.settings path = .ok settings

theorem accepted_afterUse {s : Session} (h : Accepted s.holder) (u : SettingsUse) :
    Accepted (s.afterUse u).holder := by
  rw [afterUse_holder]
  split
  · intro settings hsettings
    cases hsettings
  · cases hloaded : loaded? (s, u) with
    | none => exact h
    | some loading =>
      intro settings hsettings
      obtain rfl : loading.1 = settings := Option.some.inj hsettings
      exact ⟨u.source, loading.2, settings_of_loaded (e := (s, u)) hloaded⟩

/-- A loading gives settings that have been accepted, now or before, and holds no others. -/
theorem accepted_load {s t : Session} (h : Accepted s.holder) {path : Option String}
    {answer : Except Failure Settings} (hrun : (load path).run s = (answer, t)) :
    Accepted t.holder ∧
      ∀ settings, answer = .ok settings →
        ∃ (source : SettingsSource) (path : Option String), source.settings path = .ok settings := by
  by_cases hneeded : (path.isSome || s.holder.settings.isNone) = true
  · rw [load_of_needed hneeded] at hrun
    cases hsettings : s.source.settings path with
    | ok loaded =>
      rw [hsettings] at hrun
      obtain ⟨rfl, rfl⟩ := Prod.mk.inj hrun
      refine ⟨?_, ?_⟩
      · intro settings hheld
        obtain rfl : loaded = settings := Option.some.inj hheld
        exact ⟨s.source, path, hsettings⟩
      · intro settings hanswer
        obtain rfl := Except.ok.inj hanswer
        exact ⟨s.source, path, hsettings⟩
    | error f =>
      rw [hsettings] at hrun
      obtain ⟨rfl, rfl⟩ := Prod.mk.inj hrun
      exact ⟨h, fun _ hanswer => nomatch hanswer⟩
  · obtain ⟨rfl, held, hheld⟩ : path = none ∧ ∃ held, s.holder.settings = some held := by
      rw [← Option.isSome_iff_exists]
      simpa [Option.isSome_iff_ne_none] using hneeded
    rw [load_of_held hheld] at hrun
    obtain ⟨rfl, rfl⟩ := Prod.mk.inj hrun
    refine ⟨h, fun settings hanswer => ?_⟩
    obtain rfl := Except.ok.inj hanswer
    exact h held hheld

theorem keeps_setUpLogging (settings : LogSettings) : Step.Keeps holder (setUpLogging settings) := by
  intro s
  unfold setUpLogging
  rw [Step.run_bind, Step.run_get]
  simp only
  rcases (Logging.setUp (.document settings.entries)).run s.logging with ⟨answer, logging⟩
  cases answer <;> rfl

theorem keeps_connection (settings : DatabaseSettings) (given : Option Connection) :
    Step.Keeps holder (connectionTelling unheard settings given) := by
  cases given with
  | some connection => exact .pure _
  | none => exact .bind (.pure _) fun _ => .bind (.liftM _) fun _ => .bind (.modify fun _ => rfl) fun _ => .pure _

/-- A file that is not found cannot be loaded. -/
theorem load_of_lost {s : Session} {path : Option String} {f : Failure}
    (hneeded : (path.isSome || s.holder.settings.isNone) = true) (h : s.source.filePath path = .error f) :
    (load path).run s = (.error f, s) := by
  rw [load_of_needed hneeded, SettingsSource.settings, h]
  rfl

/-- Where nobody listens, a loading does no more than to load. -/
theorem loadTelling_unheard (path : Option String) (s : Session) :
    (loadTelling unheard path).run s = (load path).run s := by
  have hcaught : (tryCatch (load path) fun f => do
      tellRejected unheard f
      throw f).run s = (load path).run s := by
    have hquiet (f : Failure) (t : Session) :
        (tellRejected unheard f >>= fun _ => throw f : SessionM Settings).run t = (.error f, t) := by
      cases f <;> rfl
    rw [Step.run_tryCatch]
    rcases (load path).run s with ⟨answer, t⟩
    cases answer with
    | error f => exact hquiet f t
    | ok settings => rfl
  rw [loadTelling, Step.run_bind, Step.run_get]
  simp only
  cases hneeded : (s.holder.settings.isNone || path.isSome) with
  | false => exact hcaught
  | true =>
    rw [if_pos rfl, Step.run_bind, tellFile, Step.run_bind, Step.run_get]
    simp only
    rw [Step.run_bind, Step.run_liftM]
    cases hfile : s.source.filePath path with
    | error f => exact (load_of_lost (by rwa [Bool.or_comm]) hfile).symm
    | ok file => exact hcaught

/-- An opening holds what its loading holds. -/
theorem holder_open (path bucket : Option String) (given : Option Connection) (s : Session) :
    ((Session.open path bucket given).run s).2.holder = ((load path).run s).2.holder := by
  unfold Session.open openTelling
  rw [Step.run_bind, loadTelling_unheard]
  rcases (load path).run s with ⟨answer, t⟩
  cases answer with
  | error f => rfl
  | ok settings =>
    refine Step.Keeps.bind (keeps_setUpLogging _) (fun _ => ?_) t
    exact .bind (keeps_connection _ _) fun _ => .bind (.liftM _) fun _ => .bind (.pure _) fun _ => .pure _

theorem Reached.accepted {s : Session} (h : s.Reached) : Accepted s.holder := by
  induction h with
  | start hempty =>
    intro settings hsettings
    rw [hempty] at hsettings
    cases hsettings
  | use _ u ih => exact accepted_afterUse ih u
  | «open» _ path bucket given ih =>
    rw [holder_open]
    exact (accepted_load ih rfl).1
  | apart _ hholder ih =>
    rw [hholder]
    exact ih

end Session

/-! ## What is opened -/

/-- The depot that settings describe: reached through a connection of its own or through the given one, with the
bucket of another name if that is not empty. -/
def Depot.described (d : DatabaseSettings) (bucket : Option String) (given : Option Connection) : Depot where
  connection := given.getD ⟨Client.ofAddress d.address d.timeout, d.database⟩
  template := { bucket := d.bucketOr bucket, chunkSize := d.chunkSize }

/-- The check of a connection passes what has been accepted. -/
theorem Connection.ofSettings_sound {d : DatabaseSettings} (h : d.Sound) :
    Connection.ofSettings d = .ok ⟨Client.ofAddress d.address d.timeout, d.database⟩ := by
  have htruthy : (Value.text d.database).truthy = true := by
    simpa [Value.truthy] using h.database_ne_empty
  have hblank := h.database_trimmed.not_blank h.database_ne_empty
  unfold ofSettings Connection.open
  simp [htruthy, Value.text?, hblank]

namespace Session

/-- The opening without the checks of the connection and of the template. -/
def openUnchecked (path bucket : Option String) (given : Option Connection) : SessionM Depot := do
  let settings ← load path
  setUpLogging settings.logging
  return Depot.described settings.database bucket given

/-- With settings that have been accepted a depot opens as they describe it, unless logging cannot be set up. -/
theorem open_of_loaded {s t : Session} {path : Option String} {settings : Settings}
    (hsound : settings.database.Sound) (hload : (load path).run s = (.ok settings, t)) (bucket : Option String)
    (given : Option Connection) :
    ((Session.open path bucket given).run s).1 =
      ((setUpLogging settings.logging).run t).1.map fun _ => Depot.described settings.database bucket given := by
  unfold Session.open openTelling
  rw [Step.run_bind, loadTelling_unheard, hload]
  simp only
  rw [Step.run_bind]
  rcases (setUpLogging settings.logging).run t with ⟨answer, t⟩
  cases answer with
  | error f => rfl
  | ok _ =>
    cases given with
    | some connection => rfl
    | none =>
      simp only
      unfold connectionTelling connectTelling
      rw [Connection.ofSettings_sound hsound]
      rfl

/-- A depot opens as the settings describe it, unless they cannot be loaded or logging cannot be set up. -/
theorem open_run {s : Session} (h : s.Reached) (path bucket : Option String) (given : Option Connection) :
    ((Session.open path bucket given).run s).1 = ((openUnchecked path bucket given).run s).1 := by
  rcases hload : (load path).run s with ⟨answer, t⟩
  cases answer with
  | error f =>
    unfold Session.open openTelling openUnchecked
    rw [Step.run_bind, Step.run_bind, loadTelling_unheard, hload]
  | ok settings =>
    obtain ⟨source, path, haccepted⟩ := (accepted_load h.accepted hload).2 settings rfl
    rw [open_of_loaded (SettingsSource.settings_sound haccepted) hload]
    unfold openUnchecked
    rw [Step.run_bind, hload]
    simp only
    rw [Step.run_then_pure]

end Session

/-! ## Uploads through it -/

/-- An upload through a template with a chunk size sends that size, and the file that it adds has chunks of it. -/
theorem Template.store_chunkSize {t : Template} {n : Int} (ht : t.chunkSize = some n) (hn : 1 ≤ n)
    {content : Option Bytes} {filename contentType metadata : Value} {s : Store} {u : Upload}
    (h : ((t.store content filename contentType metadata).run s).1 = .ok u) :
    u.chunkSize = some n ∧
      ∃ f, (((t.store content filename contentType metadata).run s).2.bucket t.bucketName).files =
        (s.bucket t.bucketName).files ++ [f] ∧ f.id = u.id ∧ f.chunkSize = n := by
  have hnamed : t.namedChunkSize = some n := by
    unfold namedChunkSize
    rw [ht, if_neg]
    simpa using Int.ne_of_gt hn
  rw [store_run] at h ⊢
  cases content with
  | none => cases h
  | some content =>
    cases hes : t.metadataOf contentType metadata with
    | error e =>
      rw [hes] at h
      cases h
    | ok es =>
      cases hname : (nameOf filename).text? with
      | none =>
        rw [hes, hname] at h
        cases h
      | some name =>
        rw [hes, hname] at h
        obtain rfl := Except.ok.inj h
        refine ⟨hnamed, (s.asked t.bucketName).nextFile name content t.namedChunkSize (.document es), ?_, rfl, ?_⟩
        · simp only [Store.bucket_withFile, Store.bucket_asked]
          rfl
        · show (if t.namedChunkSize.getD 0 = 0 then Bucket.defaultChunkSize else t.namedChunkSize.getD 0) = n
          rw [hnamed, Option.getD_some, if_neg (Int.ne_of_gt hn)]

namespace Session

/-- **Accepted settings always make a template.** They satisfy the rules of the settings, whatever the files and
the variables are. So a depot opens, as they describe it, unless the settings cannot be loaded or logging cannot be
set up: no check of the connection or of the template is in the way. If they have a chunk size, every upload
through that template sends it. -/
theorem open_of_accepted :
    (∀ (source : SettingsSource) path settings, source.settings path = .ok settings → settings.database.Sound) ∧
    ∀ s, Reached s → ∀ path bucket given,
      ((Session.open path bucket given).run s).1 = ((openUnchecked path bucket given).run s).1 ∧
      ∀ settings n, ((load path).run s).1 = .ok settings → settings.database.chunkSize = some n →
        let template := (Depot.described settings.database bucket given).template
        ∀ content filename contentType metadata store u,
          ((template.store content filename contentType metadata).run store).1 = .ok u →
            u.chunkSize = some n ∧
              ∃ f, (((template.store content filename contentType metadata).run store).2.bucket
                template.bucketName).files = (store.bucket template.bucketName).files ++ [f] ∧
                f.id = u.id ∧ f.chunkSize = n := by
  refine ⟨fun _ _ _ h => SettingsSource.settings_sound h, fun s hs path bucket given => ⟨?_, ?_⟩⟩
  · exact open_run hs path bucket given
  · intro settings n hload hsize template content filename contentType metadata store u hu
    obtain ⟨source, path, haccepted⟩ := (accepted_load hs.accepted (Prod.eta _).symm).2 settings hload
    have hsound := SettingsSource.settings_sound haccepted
    exact Template.store_chunkSize hsize (hsound.chunkSize n hsize).1 hu

/-- A database name with blanks around it and a chunk size in digits, both as texts: the depot opens, and an upload
sends the size. -/
theorem open_of_padded_name :
    let content := "\"mongo\":\n  \"database\": \" media \"\n  \"chunk_size_bytes\": \"4\"\n".toUTF8.toList
    let s : Session := seeing {} {
      files := { nodes := [(["c.yaml"], .file content)] }, environment := {}, packaged := "" }
    ∃ settings depot u, s.source.settings (some "/c.yaml") = .ok settings ∧ settings.database.Sound ∧
      ((Session.open (some "/c.yaml") none).run s).1 = .ok depot ∧ depot.connection.database = "media" ∧
      ((depot.template.store (some [1]) (.text "a") .null .null).run {}).1 = .ok u ∧ u.chunkSize = some 4 := by
  intro content s
  have hrun : ((do
      let settings ← load (some "/c.yaml")
      setUpLogging settings.logging
      return settings.database : SessionM DatabaseSettings).run s).1 =
        .ok { database := "media", chunkSize := some 4 } := by decide +kernel
  obtain ⟨hsound, hopens⟩ := open_of_accepted
  obtain ⟨hopened, huploads⟩ := hopens s (.start rfl) (some "/c.yaml") none none
  unfold openUnchecked at hopened
  -- what has been computed is all that is needed of the file
  clear_value s
  have hload := @load_of_needed s (some "/c.yaml") rfl
  cases hsettings : s.source.settings (some "/c.yaml") with
  | error f =>
    rw [hsettings] at hload
    rw [Step.run_bind, hload] at hrun
    cases hrun
  | ok settings =>
    rw [hsettings] at hload
    rw [Step.run_bind, hload] at hrun hopened
    simp only at hrun hopened
    rw [Step.run_bind] at hrun hopened
    rcases hlogged : (setUpLogging settings.logging).run _ with ⟨answer, t⟩
    rw [hlogged] at hrun hopened
    cases answer with
    | error f => cases hrun
    | ok _ =>
      have hdatabase : settings.database = { database := "media", chunkSize := some 4 } := Except.ok.inj hrun
      have hsize : settings.database.chunkSize = some 4 := by rw [hdatabase]
      have hname : (Depot.described settings.database none none).connection.database = "media" := by
        rw [hdatabase]
        rfl
      have hstored : (((Depot.described settings.database none none).template.store (some [1]) (.text "a") .null
          .null).run {}).1 = .ok ⟨⟨1⟩, .text "a", some 4, []⟩ := by
        rw [hdatabase]
        rfl
      obtain ⟨hsent, -⟩ := huploads settings 4 (by rw [hload]) hsize _ _ _ _ _ _ hstored
      exact ⟨settings, _, _, rfl, hsound _ _ _ hsettings, hopened, hname, hstored, hsent⟩

end Session

end FileDepot
