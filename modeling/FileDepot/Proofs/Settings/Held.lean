import FileDepot.Proofs.Runs
import FileDepot.Proofs.Steps
import FileDepot.Session

/-!
# The settings that are held

A session loads its settings when it is told a path, or when they are asked for and none are held. The files and
the variables may change from one step to the next. The settings belong to the session and to no one who asks for
them, so that steps of several callers are steps of one run.

Contents:

* `SettingsStep`, `SettingsUse` — what can be done with the settings, and when;
* `Session.seeing`, `Session.use` — a use under the files and the variables of its time;
* `Session.use_of_forgets`, `Session.use_of_loads`, `Session.use_of_held` — all that a use does;
* `Session.lastLoaded`, `Session.holder_after` — the last loading that has succeeded is what is held;
* `Session.held_settings` — what is held after every run, and what the next use makes of it.
-/

namespace FileDepot

/-! ## Uses -/

/-- What can be done with the settings of a session. -/
inductive SettingsStep
  | load (path : Option String)
  | settings
  | setting (key : String) (absent : Value)
  | databaseSettings
  | logEntries
  | forget
  deriving Repr, Inhabited

namespace SettingsStep

/-- The path that a step is told. -/
def path? : SettingsStep → Option String
  | .load path => path
  | .settings | .setting _ _ | .databaseSettings | .logEntries | .forget => none

/-- The step forgets what is held. -/
def forgets : SettingsStep → Bool
  | .forget => true
  | .load _ | .settings | .setting _ _ | .databaseSettings | .logEntries => false

/-- The step loads settings: it is told a path, or it needs settings and none are held. -/
def loads (h : SettingsHolder) (x : SettingsStep) : Bool :=
  !x.forgets && (x.path?.isSome || h.settings.isNone)

/-- What a step shows of settings. -/
def shown (settings : Settings) : SettingsStep → Value
  | .load _ | .settings => .document settings.entries
  | .setting key absent => (settings.get? key).getD absent
  | .databaseSettings => .document settings.database.entries
  | .logEntries => .document settings.logging.entries
  | .forget => .null

/-- The step, with its answer as a value. -/
def perform : SettingsStep → SessionM Value
  | .load path => do return .document (← Session.load path).entries
  | .settings => do return .document (← Session.settings).entries
  | .setting key absent => Session.setting key absent
  | .databaseSettings => do return .document (← Session.databaseSettings).entries
  | .logEntries => do return .document (← Session.logEntries)
  | .forget => do
    Session.forgetSettings
    return .null

end SettingsStep

/-- A step, with the files and the variables at its time. -/
structure SettingsUse where
  step : SettingsStep
  source : SettingsSource
  deriving Repr, Inhabited

namespace Session

/-- The session when it sees other files and variables. -/
def seeing (s : Session) (source : SettingsSource) : Session :=
  { s.withFiles source.files with environment := source.environment, packaged := source.packaged }

@[simp] theorem source_seeing (s : Session) (source : SettingsSource) : (s.seeing source).source = source := rfl

@[simp] theorem holder_seeing (s : Session) (source : SettingsSource) : (s.seeing source).holder = s.holder := rfl

/-- A use of the settings. -/
def use (s : Session) (u : SettingsUse) : Except Failure Value × Session :=
  u.step.perform.run (s.seeing u.source)

/-- The session that a use leaves. -/
def afterUse (s : Session) (u : SettingsUse) : Session :=
  (s.use u).2

/-! ## What a use does -/

theorem withHolder_run {α : Type}
    (step : SettingsHolder → SettingsSource → Except Failure (α × SettingsHolder)) (s : Session) :
    (withHolder step).run s =
      match step s.holder s.source with
      | .ok (a, holder) => (.ok a, { s with holder := holder })
      | .error f => (.error f, s) := by
  unfold withHolder
  rw [Step.run_bind, Step.run_get]
  simp only
  rw [Step.run_bind, Step.run_liftM]
  cases step s.holder s.source <;> rfl

/-- Settings that are held are given as they are if no path is told. -/
theorem load_of_held {s : Session} {held : Settings} (h : s.holder.settings = some held) :
    (load none).run s = (.ok held, s) := by
  have hload : s.holder.load s.source none = .ok (held, s.holder) := by
    unfold SettingsHolder.load
    rw [h]
  unfold load
  rw [withHolder_run, hload]

/-- Otherwise they are loaded, which either replaces what is held or fails and leaves it. -/
theorem load_of_needed {s : Session} {path : Option String}
    (h : (path.isSome || s.holder.settings.isNone) = true) :
    (load path).run s =
      match s.source.settings path with
      | .ok settings => (.ok settings, { s with holder := ⟨some settings, path⟩ })
      | .error f => (.error f, s) := by
  have hload : s.holder.load s.source path =
      (s.source.settings path).map fun settings => (settings, ⟨some settings, path⟩) := by
    unfold SettingsHolder.load
    cases hheld : s.holder.settings with
    | none =>
      simp only
      cases s.source.settings path <;> rfl
    | some held =>
      cases path with
      | none => simp [hheld] at h
      | some path =>
        simp only
        cases s.source.settings (some path) <;> rfl
  unfold load
  rw [withHolder_run, hload]
  cases s.source.settings path <;> rfl

/-- A step that does not forget loads the settings if it has to, and shows something of them. -/
theorem perform_run {x : SettingsStep} (hx : x.forgets = false) (s : Session) :
    x.perform.run s =
      (((load x.path?).run s).1.map fun settings => x.shown settings, ((load x.path?).run s).2) := by
  cases x with
  | load path => exact Step.run_then_pure _ (fun settings : Settings => Value.document settings.entries) s
  | settings => exact Step.run_then_pure _ (fun settings : Settings => Value.document settings.entries) s
  | databaseSettings =>
    -- the part is taken out of the settings first, and both are one step
    show ((load none >>= fun settings => pure settings.database) >>= fun d =>
      pure (Value.document d.entries)).run s = _
    simp only [bind_assoc, pure_bind]
    exact Step.run_then_pure _ (fun settings : Settings => Value.document settings.database.entries) s
  | logEntries =>
    show ((load none >>= fun settings => pure settings.logging.entries) >>= fun es =>
      pure (Value.document es)).run s = _
    simp only [bind_assoc, pure_bind]
    exact Step.run_then_pure _ (fun settings : Settings => Value.document settings.logging.entries) s
  | setting key absent =>
    show (withHolder fun h source => h.get source key absent).run s =
      (((withHolder fun h source => h.load source none).run s).1.map _,
        ((withHolder fun h source => h.load source none).run s).2)
    rw [withHolder_run, withHolder_run]
    unfold SettingsHolder.get SettingsHolder.current
    cases s.holder.load s.source none <;> rfl
  | forget => cases hx

section

variable {s : Session} {u : SettingsUse}

/-- A use that forgets leaves nothing held. -/
theorem use_of_forgets (h : u.step.forgets = true) :
    s.use u = (.ok .null, { s.seeing u.source with holder := {} }) := by
  unfold use
  cases hstep : u.step with
  | forget => rfl
  | _ =>
    rw [hstep] at h
    cases h

/-- A use that loads answers as the loading does, and replaces what is held if that succeeds. -/
theorem use_of_loads (h : u.step.loads s.holder = true) :
    s.use u =
      match u.source.settings u.step.path? with
      | .ok settings =>
        (.ok (u.step.shown settings), { s.seeing u.source with holder := ⟨some settings, u.step.path?⟩ })
      | .error f => (.error f, s.seeing u.source) := by
  obtain ⟨hforgets, hneeded⟩ : u.step.forgets = false ∧
      (u.step.path?.isSome || (s.seeing u.source).holder.settings.isNone) = true := by
    simpa [SettingsStep.loads] using h
  unfold use
  rw [perform_run hforgets, load_of_needed hneeded, source_seeing]
  cases u.source.settings u.step.path? <;> rfl

/-- Any other use shows what is held, and looks at neither files nor variables. -/
theorem use_of_held {held : Settings} (hheld : s.holder.settings = some held) (hpath : u.step.path? = none)
    (hforgets : u.step.forgets = false) : s.use u = (.ok (u.step.shown held), s.seeing u.source) := by
  unfold use
  rw [perform_run hforgets, hpath, load_of_held (s := s.seeing u.source) hheld]
  rfl

/-- A step that neither forgets nor loads is told no path, and finds something held. -/
theorem held_of_not_loads {h : SettingsHolder} {x : SettingsStep} (hforgets : x.forgets = false)
    (hloads : x.loads h = false) : x.path? = none ∧ ∃ held, h.settings = some held := by
  simpa [SettingsStep.loads, hforgets, Option.isSome_iff_exists] using hloads

/-- A use that fails leaves what is held. -/
theorem use_error {f : Failure} (h : (s.use u).1 = .error f) : (s.use u).2.holder = s.holder := by
  cases hforgets : u.step.forgets with
  | true =>
    rw [use_of_forgets hforgets] at h
    cases h
  | false =>
    cases hloads : u.step.loads s.holder with
    | true =>
      rw [use_of_loads hloads] at h ⊢
      cases hsettings : u.source.settings u.step.path? with
      | ok settings =>
        rw [hsettings] at h
        cases h
      | error e => rfl
    | false =>
      obtain ⟨hpath, held, hheld⟩ := held_of_not_loads hforgets hloads
      rw [use_of_held hheld hpath hforgets] at h
      cases h

end

/-! ## Runs -/

/-- What a use in a run has loaded, with the path that it was told: nothing if it did not load or the loading
failed. -/
def loaded? (e : Session × SettingsUse) : Option (Settings × Option String) :=
  if e.2.step.loads e.1.holder then
    (e.2.source.settings e.2.step.path?).toOption.map fun settings => (settings, e.2.step.path?)
  else none

theorem settings_of_loaded {e : Session × SettingsUse} {settings : Settings} {path : Option String}
    (h : loaded? e = some (settings, path)) : e.2.source.settings path = .ok settings := by
  unfold loaded? at h
  split at h
  · obtain ⟨given, hgiven, hpair⟩ := Option.map_eq_some_iff.mp h
    obtain ⟨rfl, rfl⟩ := Prod.mk.inj hpair
    cases hsource : e.2.source.settings e.2.step.path? with
    | ok other => rw [hsource, Except.toOption, Option.some.injEq] at hgiven; rw [hgiven]
    | error f =>
      rw [hsource] at hgiven
      cases hgiven
  · cases h

/-- The last of the loadings that have succeeded since the settings were forgotten. -/
def lastLoaded (s : Session) (uses : List SettingsUse) : Option (Settings × Option String) :=
  ((Run.since afterUse (fun u => u.step.forgets) s uses).filterMap loaded?).getLast?

/-- The holder of what a loading has given. -/
def holding : Option (Settings × Option String) → SettingsHolder
  | none => {}
  | some (settings, path) => ⟨some settings, path⟩

/-- One more use: a loading that succeeds comes last, and forgetting leaves none. -/
theorem lastLoaded_concat (s : Session) (uses : List SettingsUse) (u : SettingsUse) :
    s.lastLoaded (uses ++ [u]) =
      if u.step.forgets then none
      else (loaded? (uses.foldl afterUse s, u)).or (s.lastLoaded uses) := by
  unfold lastLoaded
  rw [Run.since_concat]
  cases u.step.forgets with
  | true => rfl
  | false =>
    simp only [Bool.false_eq_true, if_false, List.filterMap_append, List.filterMap_cons, List.filterMap_nil]
    cases loaded? (uses.foldl afterUse s, u) with
    | none => simp
    | some loading => simp

/-- A use leaves what it has loaded, nothing if it forgets, and else what was held. -/
theorem afterUse_holder (s : Session) (u : SettingsUse) :
    (s.afterUse u).holder =
      if u.step.forgets then {}
      else
        match loaded? (s, u) with
        | some loading => holding (some loading)
        | none => s.holder := by
  unfold afterUse
  cases hforgets : u.step.forgets with
  | true =>
    rw [use_of_forgets hforgets]
    rfl
  | false =>
    cases hloads : u.step.loads s.holder with
    | true =>
      rw [use_of_loads hloads]
      simp only [loaded?, hloads, Bool.false_eq_true, if_false, if_true]
      cases u.source.settings u.step.path? <;> rfl
    | false =>
      obtain ⟨hpath, held, hheld⟩ := held_of_not_loads hforgets hloads
      rw [use_of_held hheld hpath hforgets]
      simp only [loaded?, hloads, Bool.false_eq_true, if_false]
      rfl

/-- What is held after a run is what the last loading that has succeeded has given. -/
theorem holder_after {s : Session} (hempty : s.holder = {}) (uses : List SettingsUse) :
    (uses.foldl afterUse s).holder = holding (s.lastLoaded uses) := by
  -- by the last use of the run, so that what it finds is what the run before it has left
  induction uses using List.reverseRecOn with
  | nil => exact hempty
  | append_singleton uses u ih =>
    rw [List.foldl_append, List.foldl_cons, List.foldl_nil, afterUse_holder, lastLoaded_concat]
    cases u.step.forgets with
    | true => rfl
    | false =>
      simp only [Bool.false_eq_true, if_false]
      cases loaded? (uses.foldl afterUse s, u) with
      | none => exact ih
      | some loading => rfl

/-- **What is held is what the last loading has given that has succeeded** since the settings were forgotten, and
so is the path. The next use loads only if it is told a path or nothing is held, and then answers as the loading
does; otherwise it shows what is held, whatever the files and the variables are by then. If it fails, what is held
stays as it is. -/
theorem held_settings {s : Session} (hempty : s.holder = {}) (uses : List SettingsUse) :
    let s' := uses.foldl afterUse s
    s'.holder.settings = (s.lastLoaded uses).map Prod.fst ∧
    s'.settingsPath = (s.lastLoaded uses).bind Prod.snd ∧
    ∀ u : SettingsUse,
      (u.step.loads s'.holder = true →
        (s'.use u).1 = (u.source.settings u.step.path?).map fun settings => u.step.shown settings) ∧
      (∀ held, s'.holder.settings = some held → u.step.path? = none → u.step.forgets = false →
        (s'.use u).1 = .ok (u.step.shown held) ∧ (s'.use u).2.holder = s'.holder) ∧
      ∀ f, (s'.use u).1 = .error f → (s'.use u).2.holder = s'.holder := by
  intro s'
  have hholder : s'.holder = holding (s.lastLoaded uses) := holder_after hempty uses
  refine ⟨?_, ?_, fun u => ⟨?_, ?_, ?_⟩⟩
  · rw [hholder]
    cases s.lastLoaded uses <;> rfl
  · rw [settingsPath, hholder]
    cases s.lastLoaded uses <;> rfl
  · intro hloads
    rw [use_of_loads hloads]
    cases u.source.settings u.step.path? <;> rfl
  · intro held hheld hpath hforgets
    rw [use_of_held hheld hpath hforgets]
    exact ⟨rfl, rfl⟩
  · intro f hf
    exact use_error hf

/-- A loading of a file that is missing fails after one that has succeeded: what that has given is shown even when
its file is gone. -/
theorem held_settings_of_gone :
    let content := "\"mongo\":\n  \"bucket\": \"photos\"\n".toUTF8.toList
    let written : SettingsSource := {
      files := { nodes := [(["c.yaml"], .file content)] }, environment := {}, packaged := "" }
    let gone : SettingsSource := { files := {}, environment := {}, packaged := "" }
    let uses : List SettingsUse := [⟨.load (some "/c.yaml"), written⟩, ⟨.load (some "/d.yaml"), written⟩]
    let s' := uses.foldl afterUse {}
    s'.settingsPath = some "/c.yaml" ∧
    (s'.use ⟨.databaseSettings, gone⟩).1 =
      .ok (.document ({ bucket := some "photos" } : DatabaseSettings).entries) ∧
    (s'.use ⟨.load (some "/c.yaml"), gone⟩).1.toOption.isNone = true ∧
    (s'.use ⟨.load (some "/c.yaml"), gone⟩).2.holder = s'.holder := by
  intro content written gone uses s'
  have hlast : (lastLoaded {} uses).map (fun e => (e.1.database, e.2)) =
      some ({ bucket := some "photos" }, some "/c.yaml") := by decide +kernel
  have hmissing : (gone.settings (some "/c.yaml")).toOption.isNone = true := by decide +kernel
  obtain ⟨hheld, hpath, huse⟩ := held_settings (s := {}) rfl uses
  obtain ⟨⟨held, path⟩, hlast, hgiven⟩ := Option.map_eq_some_iff.mp hlast
  obtain ⟨hdatabase, rfl⟩ := Prod.mk.inj hgiven
  rw [hlast] at hheld hpath
  obtain ⟨-, hshows, -⟩ := huse ⟨.databaseSettings, gone⟩
  obtain ⟨hloads, -, hkeeps⟩ := huse ⟨.load (some "/c.yaml"), gone⟩
  obtain ⟨f, hf⟩ : ∃ f, gone.settings (some "/c.yaml") = .error f := by
    cases hsettings : gone.settings (some "/c.yaml") with
    | error f => exact ⟨f, rfl⟩
    | ok settings =>
      rw [hsettings] at hmissing
      cases hmissing
  have hfails : (s'.use ⟨.load (some "/c.yaml"), gone⟩).1 = .error f :=
    (hloads rfl).trans (congrArg (Except.map _) hf)
  refine ⟨hpath, ?_, ?_, hkeeps f hfails⟩
  · rw [(hshows held hheld rfl rfl).1, SettingsStep.shown, ← hdatabase]
  · rw [hfails]
    rfl

end Session

end FileDepot
