import FileDepot.Proofs.Logging.SetUp
import FileDepot.Proofs.Settings.LogSection
import FileDepot.Proofs.Value.Numbers

/-!
# Logging is set up with what has been accepted

Setting up the logging makes the directories of the log files, and applies the configuration afterwards. Only the
second step is guarded: where a configuration cannot be applied, a handler for the root logger stands in for it and
a warning is given. A directory that cannot be made stops the set-up, and so do a reference that leads nowhere, where
a configuration makes one outside of its sections, a call that ends the program, and a warning that is refused.

Contents:

* `Logging.folderFor`, `Logging.folderMade`, `Logging.prepareFolders_run` — the directories of the handlers;
* `Logging.refused_of_foldlM`, `Logging.foldlM_of_folderFor` — the handler whose directory cannot be made;
* `Logging.application`, `Logging.applied` — what is applied, and what stands in for it;
* `Logging.TakenOver`, `Logging.takenOver` — the ways in which a configuration is taken over;
* `Logging.accounted_of_accepted` — something stands in for every accepted section that makes no such references, but
  for the failures of calls;
* `Logging.NotSetUp`, `Logging.setUp_cases` — why logging is not set up;
* `Logging.setUp_of_accepted` — when logging is set up, and what is left when it is not.
-/

namespace FileDepot

open Step

namespace Logging

theorem get?_withVersion (es : Entries) (name : String) :
    (withVersion es).get? name =
      if name = "version" then some ((es.get? name).getD (.int 1)) else es.get? name := by
  unfold withVersion
  by_cases hname : name = "version"
  · subst hname
    rw [if_pos rfl]
    cases hversion : es.get? "version" with
    | some v => simpa using hversion
    | none =>
      simp only [Option.isSome_none, Bool.false_eq_true, if_false]
      rw [Entries.get?_append, hversion]
      rfl
  · rw [if_neg hname]
    split
    · rfl
    · rw [Entries.get?_append, Entries.get?_cons, if_neg]
      · exact Option.or_none
      · simpa [Value.text?] using Ne.symm hname

/-! ## Directories -/

/-- The directory that a handler needs: that of its file, unless it is the working directory. -/
def folderFor (handler : Value) : Except Failure (Option String) :=
  let filename := ((ownEntries? handler).bind fun es => es.get? "filename").getD .null
  if filename.truthy then
    match filename.filePath? with
    | none => .error .wrongKind
    | some path =>
      let folder := FileTree.parentPath path
      .ok (if folder = "" then none else some folder)
  else .ok none

/-- The files with the directory that a handler needs. -/
def folderMade (files : FileTree) (handler : Value) : Except Failure FileTree :=
  (folderFor handler).bind fun folder =>
    match folder with
    | none => .ok files
    | some folder => files.makeDirectories folder

/-- The handlers of a configuration. -/
def handlersOf (es : Entries) : List Value :=
  match es.get? "handlers" with
  | some (.map _ hs) => hs.map (·.2)
  | _ => []

/-- The logging with other files around it. -/
def withFiles (s : Logging) (files : FileTree) : Logging :=
  { s with board := { s.board with files := files } }

theorem prepareFolder_run (handler : Value) (s : Logging) :
    (prepareFolder handler).run s =
      match folderMade s.board.files handler with
      | .ok files => (.ok (), s.withFiles files)
      | .error f => (.error f, s) := by
  unfold prepareFolder folderMade folderFor
  generalize ((ownEntries? handler).bind fun es => es.get? "filename").getD .null = filename
  simp only
  split
  · cases filename.filePath? with
    | none => rfl
    | some path =>
      simp only
      by_cases hfolder : FileTree.parentPath path = ""
      · simp only [hfolder]
        rfl
      · have hmade : (FileTree.parentPath path != "") = true := by simpa using hfolder
        simp only [hmade, if_true, hfolder, if_false]
        rw [run_bind, run_get]
        simp only
        rw [run_bind, run_liftM]
        simp only [Except.bind]
        cases s.board.files.makeDirectories (FileTree.parentPath path) <;> rfl
  · rfl

/-- Directories are made up to the first one that cannot be made. -/
theorem prepareAll_run (es : Entries) (s : Logging) :
    ∃ files, (es.forM fun h => prepareFolder h.2).run s =
        (((es.map (·.2)).foldlM folderMade s.board.files).map fun _ => (), s.withFiles files) ∧
      ∀ made, (es.map (·.2)).foldlM folderMade s.board.files = .ok made → files = made := by
  induction es generalizing s with
  | nil => exact ⟨s.board.files, rfl, fun made h => Except.ok.inj h⟩
  | cons e es ih =>
    rw [List.map_cons, List.foldlM_cons]
    show ∃ files, (prepareFolder e.2 >>= fun _ => es.forM fun h => prepareFolder h.2).run s = _ ∧ _
    rw [run_bind, prepareFolder_run]
    cases folderMade s.board.files e.2 with
    | error f => exact ⟨s.board.files, rfl, fun made h => nomatch h⟩
    | ok first =>
      obtain ⟨files, hrun, hmade⟩ := ih (s.withFiles first)
      exact ⟨files, hrun, hmade⟩

/-- The directories of all handlers, where these are in a mapping, if there are any. -/
theorem prepareFolders_run (s : Logging) {es : Entries}
    (hhandlers : ∀ v, es.get? "handlers" = some v → ∃ kind hs, v = .map kind hs) :
    ∃ files, (prepareFolders (withVersion es)).run s =
        (((handlersOf es).foldlM folderMade s.board.files).map fun _ => (), s.withFiles files) ∧
      ∀ made, (handlersOf es).foldlM folderMade s.board.files = .ok made → files = made := by
  unfold prepareFolders handlersOf
  rw [get?_withVersion, if_neg (by decide)]
  cases hfound : es.get? "handlers" with
  | none => exact ⟨s.board.files, rfl, fun made h => Except.ok.inj h⟩
  | some v =>
    obtain ⟨kind, hs, rfl⟩ := hhandlers v hfound
    exact prepareAll_run hs s

/-- A directory that cannot be made is that of some handler, after those before it have been made. -/
theorem refused_of_foldlM {f : Failure} {handlers : List Value} {files : FileTree}
    (h : handlers.foldlM folderMade files = .error f) :
    ∃ before handler behind made, handlers = before ++ handler :: behind ∧
      before.foldlM folderMade files = .ok made ∧ folderMade made handler = .error f := by
  induction handlers generalizing files with
  | nil => cases h
  | cons handler handlers ih =>
    rw [List.foldlM_cons] at h
    cases hmade : folderMade files handler with
    | error f' =>
      rw [hmade] at h
      obtain rfl : f' = f := Except.error.inj h
      exact ⟨[], handler, handlers, files, rfl, rfl, hmade⟩
    | ok made =>
      rw [hmade] at h
      obtain ⟨before, refused, behind, made', rfl, hbefore, hrefused⟩ := ih h
      refine ⟨handler :: before, refused, behind, made', rfl, ?_, hrefused⟩
      rw [List.foldlM_cons, hmade]
      exact hbefore

/-- A handler with a file name that is no path is refused wherever it stands. -/
theorem foldlM_of_folderFor {handlers : List Value} {handler : Value} (hmem : handler ∈ handlers) {f : Failure}
    (h : folderFor handler = .error f) (files made : FileTree) : handlers.foldlM folderMade files ≠ .ok made := by
  induction handlers generalizing files with
  | nil => cases hmem
  | cons first handlers ih =>
    intro hmade
    rw [List.foldlM_cons] at hmade
    obtain ⟨next, hfirst, hmade⟩ := bind_eq_ok.mp hmade
    rcases List.mem_cons.mp hmem with rfl | hmem
    · unfold folderMade at hfirst
      rw [h] at hfirst
      cases hfirst
    · exact ih hmem next hmade

/-! ## What is applied -/

/-- What has kept a configuration from being applied to its end, and the loggers then. Without entries there is
nothing to apply. -/
def application (calls : LogCalls) (b : LogBoard) (es : Entries) : Option LogFault × LogBoard :=
  if es.isEmpty then (none, b)
  else
    match LogSetup.apply.run ⟨b, Draft.ofEntries (withVersion es), calls⟩ with
    | (.ok _, w) => (none, w.board)
    | (.error f, w) => (some f, w.board)

/-- The warning of a configuration for which something stands in. -/
def fallbackWarning (f : LogFault) : String :=
  s!"Failed to configure logging with provided settings: {f.message}"

/-- The logging with a configuration that has been applied, or with what stands in for it once this has been told of.
The warning may be refused. -/
def applied (s : Logging) : Option LogFault × LogBoard → Except Failure Unit × Logging
  | (none, board) => (.ok (), { s with board := board })
  | (some f, board) => (warn (fallbackWarning f)).run { s with board := board.addBasic }

theorem applied_some (s : Logging) (f : LogFault) (board : LogBoard) :
    s.applied (some f, board) = (warn (fallbackWarning f)).run { s with board := board.addBasic } := rfl

theorem warnings_applied (s : Logging) (r : Option LogFault × LogBoard) :
    (s.applied r).2.warnings = s.warnings ++ (r.1.map fallbackWarning).toList := by
  obtain ⟨fault, board⟩ := r
  cases fault with
  | none => exact (List.append_nil _).symm
  | some f =>
    rw [applied_some, warn_run]
    rfl

theorem held_applied (s : Logging) (r : Option LogFault × LogBoard) : (s.applied r).2.held = s.held := by
  obtain ⟨fault, board⟩ := r
  cases fault with
  | none => rfl
  | some f => exact keeps_warn _ _

/-- Only the warning of what stands in can be refused. -/
theorem fault_of_applied {s : Logging} {r : Option LogFault × LogBoard} {f : Failure}
    (h : (s.applied r).1 = .error f) : ∃ fault, r.1 = some fault := by
  obtain ⟨fault, board⟩ := r
  cases fault with
  | none => cases h
  | some fault => exact ⟨fault, rfl⟩

/-- Where nobody refuses a message the warning is heard. -/
theorem applied_of_agrees {s : Logging} (h : s.world.Agrees) (r : Option LogFault × LogBoard) :
    (s.applied r).1 = .ok () := by
  obtain ⟨fault, board⟩ := r
  cases fault with
  | none => rfl
  | some f =>
    rw [applied_some, warn_run]
    exact h _ _

theorem applyAll_run (es : Entries) (s : Logging) :
    ∃ given, (applyAll es).run s =
      match LogSetup.apply.run ⟨s.board, Draft.ofEntries es, s.world.calls⟩ with
      | (.ok _, w) => ((s.applied (none, w.board)).1.map fun _ => given, (s.applied (none, w.board)).2)
      | (.error f, w) =>
        match f.failure? with
        | some failure => (.error failure, { s with board := w.board })
        | none => ((s.applied (some f, w.board)).1.map fun _ => given, (s.applied (some f, w.board)).2) := by
  refine ⟨(LogSetup.apply.run ⟨s.board, Draft.ofEntries es, s.world.calls⟩).2.draft.given es, ?_⟩
  unfold applyAll
  rw [run_bind, run_get]
  simp only
  rcases LogSetup.apply.run ⟨s.board, Draft.ofEntries es, s.world.calls⟩ with ⟨answer, w⟩
  cases answer with
  | ok u => rfl
  | error f =>
    simp only
    cases f.failure? with
    | some failure => rfl
    | none =>
      exact run_then_pure (warn (fallbackWarning f)) (fun _ => w.draft.given es)
        { s with board := w.board.addBasic }

/-- How a configuration is taken over that has handlers in a mapping, if any. -/
inductive TakenOver (s : Logging) (es : Entries) : Except Failure Entries × Logging → Prop
  /-- A directory cannot be made. -/
  | refused {f : Failure} {files : FileTree} (h : (handlersOf es).foldlM folderMade s.board.files = .error f) :
    TakenOver s es (.error f, s.withFiles files)
  /-- Nothing stands in for what cannot be applied. -/
  | failed {files : FileTree} {fault : LogFault} {f : Failure} {board : LogBoard}
    (h : (handlersOf es).foldlM folderMade s.board.files = .ok files)
    (happlied : application s.world.calls { s.board with files := files } es = (some fault, board))
    (hf : fault.failure? = some f) : TakenOver s es (.error f, { s with board := board })
  /-- It is applied, or something stands in for it, which is told of. -/
  | taken {files : FileTree} (given : Entries) (h : (handlersOf es).foldlM folderMade s.board.files = .ok files)
    (hanswered : ∀ fault, (application s.world.calls { s.board with files := files } es).1 = some fault →
      fault.Answered) :
    TakenOver s es
      ((s.applied (application s.world.calls { s.board with files := files } es)).1.map fun _ => given,
        (s.applied (application s.world.calls { s.board with files := files } es)).2)

/-- What is applied after the directories have been made, or what stands in for it. -/
theorem takenOver_applyAll {s : Logging} {es : Entries} {files : FileTree} (hes : es.isEmpty = false)
    (hmade : (handlersOf es).foldlM folderMade s.board.files = .ok files) :
    TakenOver s es ((applyAll (withVersion es)).run (s.withFiles files)) := by
  obtain ⟨given, happly⟩ := applyAll_run (withVersion es) (s.withFiles files)
  have happlication : application s.world.calls { s.board with files := files } es =
      match LogSetup.apply.run
        ⟨(s.withFiles files).board, Draft.ofEntries (withVersion es), (s.withFiles files).world.calls⟩ with
      | (.ok _, w) => (none, w.board)
      | (.error f, w) => (some f, w.board) := by
    unfold application
    rw [hes]
    rfl
  rw [happly]
  rcases hrun : LogSetup.apply.run
    ⟨(s.withFiles files).board, Draft.ofEntries (withVersion es), (s.withFiles files).world.calls⟩ with ⟨answer, w⟩
  rw [hrun] at happlication
  cases answer with
  | ok u =>
    have htaken := TakenOver.taken given hmade (by
      rw [happlication]
      exact fun fault hfault => nomatch hfault)
    rw [happlication] at htaken
    exact htaken
  | error fault =>
    simp only
    cases hfault : fault.failure? with
    | some f => exact .failed hmade happlication hfault
    | none =>
      have htaken := TakenOver.taken given hmade (by
        rw [happlication]
        rintro fault' hfault'
        obtain rfl := Option.some.inj hfault'
        exact hfault)
      rw [happlication] at htaken
      exact htaken

theorem takenOver (s : Logging) {es : Entries}
    (hhandlers : ∀ v, es.get? "handlers" = some v → ∃ kind hs, v = .map kind hs) :
    TakenOver s es ((takeOver (.document es)).run s) := by
  unfold takeOver
  have hentries : entriesOf (.document es) = .ok es := by
    cases es with
    | nil => rfl
    | cons e es => rfl
  rw [run_bind, run_liftM, hentries]
  simp only
  cases hes : es.isEmpty with
  | true =>
    obtain rfl := List.isEmpty_iff.mp hes
    exact .taken [] rfl fun fault hfault => nomatch hfault
  | false =>
    simp only [Bool.false_eq_true, if_false]
    obtain ⟨files, hrun, hmade⟩ := prepareFolders_run s hhandlers
    rw [run_bind, hrun]
    -- the configuration is applied among the files that the directories have left
    cases hfold : (handlersOf es).foldlM folderMade s.board.files with
    | error f => exact .refused hfold
    | ok made =>
      obtain rfl := hmade made hfold
      exact takenOver_applyAll hes hfold

/-! ## What has been accepted -/

section

variable {place : List String} {es : Entries} {settings : LogSettings}

theorem handlers_of_accepted (h : LogSettings.ofEntries place es = .accepted settings) :
    ∀ v, es.get? "handlers" = some v → ∃ kind hs, v = .map kind hs := by
  intro v hv
  have hread := (LogSettings.ofEntries_accepted h).handlers
  rw [hv] at hread
  obtain ⟨kind, hs, gs, hmap, -⟩ := Setting.mapping_eq_accepted hread
  exact ⟨kind, hs, hmap⟩

/-- What has been accepted and makes no references outside of its sections is applied, or something stands in
for it, but for the failures of calls. -/
theorem accounted_of_accepted (h : LogSettings.ofEntries place es = .accepted settings)
    (hdirect : LogSettings.Direct es) {calls : LogCalls} {b : LogBoard} {fault : LogFault}
    (hfault : (application calls b es).1 = some fault) : fault.Accounted calls := by
  have hread := LogSettings.ofEntries_accepted h
  obtain ⟨v, n, hversion, hwhole⟩ : ∃ v n, (withVersion es).get? "version" = some v ∧ Setting.whole v = .ok n := by
    have hgiven := hread.version
    rw [get?_withVersion, if_pos rfl]
    cases hv : es.get? "version" with
    | none => exact ⟨.int 1, 1, rfl, rfl⟩
    | some v =>
      rw [hv] at hgiven
      exact ⟨v, settings.version, rfl, hgiven⟩
  -- the version that is filled in is a number, like one that has been checked
  have hguarded : (Draft.ofEntries (withVersion es)).Guarded Value.Calm := by
    refine Draft.guarded_ofEntries fun name hname w hw => ?_
    rw [get?_withVersion] at hw
    split at hw
    · next heq =>
      subst heq
      rw [get?_withVersion, if_pos rfl] at hversion
      obtain rfl := Option.some.inj (hversion.symm.trans hw)
      exact Setting.firm_of_whole hwhole
    · exact LogSettings.firm_of_accepted h hdirect name hname w hw
  obtain ⟨-, hfails⟩ := LogSetup.leads_apply (C := calls) hguarded hversion hwhole b _ rfl
  unfold application at hfault
  split at hfault
  · cases hfault
  · rcases hrun : LogSetup.apply.run ⟨b, Draft.ofEntries (withVersion es), calls⟩ with ⟨answer, w⟩
    rw [hrun] at hfault
    cases answer with
    | ok u => cases hfault
    | error f =>
      obtain rfl : f = fault := Option.some.inj hfault
      exact hfails f w hrun

/-- A reference among the filters is not among the sections that are checked, and may lead nowhere. -/
example : (application Outside.called {} [(.text "filters", .text "cfg://nowhere")]).1 =
    some (.reference .missing) := by
  decide +kernel

/-- Why logging is not set up: the directory of a handler cannot be made, nothing stands in for what cannot be applied,
or the warning of what stands in is refused. -/
inductive NotSetUp (s : Logging) (es : Entries) (f : Failure) : List String → Prop
  | folder {before behind : List Value} {handler : Value} {files : FileTree}
    (hhandlers : handlersOf es = before ++ handler :: behind)
    (hmade : before.foldlM folderMade s.board.files = .ok files) (hrefused : folderMade files handler = .error f) :
    NotSetUp s es f []
  | unanswered {files : FileTree} {fault : LogFault}
    (hmade : (handlersOf es).foldlM folderMade s.board.files = .ok files)
    (hfault : (application s.world.calls { s.board with files := files } es).1 = some fault)
    (hfailure : fault.failure? = some f) : NotSetUp s es f []
  | warning {files : FileTree} {fault : LogFault}
    (hmade : (handlersOf es).foldlM folderMade s.board.files = .ok files)
    (hfault : (application s.world.calls { s.board with files := files } es).1 = some fault)
    (hrefused : (s.applied (application s.world.calls { s.board with files := files } es)).1 = .error f) :
    NotSetUp s es f [fallbackWarning fault]

/-- A set-up tells of itself, or it fails and leaves what has been set up. -/
theorem setUp_cases (haccepted : LogSettings.ofEntries place es = .accepted settings) {s : Logging}
    (hfree : s.taken = none) (hnew : s.configured = false) :
    (∃ files given, (handlersOf es).foldlM folderMade s.board.files = .ok files ∧
      (∀ fault, (application s.world.calls { s.board with files := files } es).1 = some fault → fault.Answered) ∧
      (s.applied (application s.world.calls { s.board with files := files } es)).1 = .ok () ∧
      (setUp (.document es)).run s =
        tellSetUp.run { (s.applied (application s.world.calls { s.board with files := files } es)).2 with
          taken := some given, manager := some given, configured := true }) ∨
    ∃ f t warned, (setUp (.document es)).run s = (.error f, t) ∧ t.setUpState = s.setUpState ∧
      t.warnings = s.warnings ++ warned ∧ NotSetUp s es f warned := by
  have htakes := takenOver s (handlers_of_accepted haccepted)
  rw [setUp_of_not_configured hnew, instance_of_free hfree]
  generalize (takeOver (.document es)).run s = round at htakes ⊢
  cases htakes with
  | @refused f files hmade =>
    obtain ⟨before, handler, behind, made, hhandlers, hbefore, hrefused⟩ := refused_of_foldlM hmade
    exact .inr ⟨f, _, [], rfl, rfl, (List.append_nil _).symm, .folder hhandlers hbefore hrefused⟩
  | @failed files fault f board hmade happlied hfault =>
    exact .inr ⟨f, _, [], rfl, rfl, (List.append_nil _).symm, .unanswered hmade (congrArg Prod.fst happlied) hfault⟩
  | @taken files given hmade hanswered =>
    cases htold : (s.applied (application s.world.calls { s.board with files := files } es)).1 with
    | ok _ => exact .inl ⟨files, given, hmade, hanswered, htold, by simp only [Except.map]⟩
    | error f =>
      obtain ⟨fault, hfault⟩ := fault_of_applied htold
      refine .inr ⟨f, _, [fallbackWarning fault], rfl, congrArg Prod.fst (held_applied s _), ?_,
        .warning hmade hfault htold⟩
      rw [warnings_applied, hfault]
      rfl

/-- None of these is the case where logging is set up. -/
theorem NotSetUp.excluded {s : Logging} {f : Failure} {warned : List String} (h : NotSetUp s es f warned)
    {files : FileTree} (hmade : (handlersOf es).foldlM folderMade s.board.files = .ok files)
    (hanswered : ∀ fault, (application s.world.calls { s.board with files := files } es).1 = some fault →
      fault.Answered)
    (hheard : (s.applied (application s.world.calls { s.board with files := files } es)).1 = .ok ()) : False := by
  cases h with
  | folder hhandlers hbefore hrefused =>
    rw [hhandlers, List.foldlM_append, hbefore] at hmade
    change (List.foldlM folderMade _ (_ :: _)) = _ at hmade
    rw [List.foldlM_cons, hrefused] at hmade
    cases hmade
  | unanswered hmade' hfault hfailure =>
    obtain rfl := Except.ok.inj (hmade.symm.trans hmade')
    cases (hanswered _ hfault).symm.trans hfailure
  | warning hmade' _ hrefused =>
    obtain rfl := Except.ok.inj (hmade.symm.trans hmade')
    cases hheard.symm.trans hrefused

/-- What a set-up tells of itself leaves what has been set up, the warnings, and an answer of who hears it. -/
theorem tellSetUp_kept {s t : Logging} {answer : Except Failure Unit} (h : (answer, t) = tellSetUp.run s) :
    t.setUpState = s.setUpState ∧ t.warnings = s.warnings ∧ (s.world.Agrees → answer = .ok ()) := by
  rw [tellSetUp_run] at h
  obtain ⟨rfl, rfl⟩ := Prod.mk.inj h
  exact ⟨rfl, rfl, fun hagrees => hagrees _ _⟩

/-- **Logging is set up with every mapping that is accepted**, as far as the directories of its files can be made,
something stands in for what cannot be applied, and nobody refuses the warning of this.

Where it is set up, one warning is given if something stands in, and the set-up ends by telling of itself, which
fails only where somebody refuses that message. Where it is not, the set-up fails and leaves what has been set up
before: the failure comes from the directory of the first handler that cannot be prepared, from the application, or
from who refuses the warning, which has then been given.

For configurations without references outside of their sections only a call can fail so that nothing stands in. Where
no call does and nobody refuses a message, the directories alone decide. A handler whose file name is no path always
stops the set-up. -/
theorem setUp_of_accepted (haccepted : LogSettings.ofEntries place es = .accepted settings) {s : Logging}
    (hfree : s.taken = none) (hnew : s.configured = false) :
    let made := (handlersOf es).foldlM folderMade s.board.files
    let result (files : FileTree) := application s.world.calls { s.board with files := files } es
    let after := (setUp (.document es)).run s
    (after.2.configured = true ↔
      ∃ files, made = .ok files ∧ (∀ fault, (result files).1 = some fault → fault.Answered) ∧
        (s.applied (result files)).1 = .ok ()) ∧
    (∀ files, made = .ok files → after.2.configured = true →
      after.2.warnings = s.warnings ++ ((result files).1.map fallbackWarning).toList ∧
      (∃ given, after = tellSetUp.run { (s.applied (result files)).2 with
        taken := some given, manager := some given, configured := true }) ∧
      (s.world.Agrees → after.1 = .ok ())) ∧
    (after.2.configured = false →
      ∃ f warned, after.1 = .error f ∧ after.2.setUpState = s.setUpState ∧ after.2.warnings = s.warnings ++ warned ∧
        NotSetUp s es f warned) ∧
    (LogSettings.Direct es →
      (∀ files fault, (result files).1 = some fault →
        fault.Answered ∨ ∃ f, LogCalls.Escape s.world.calls f ∧ fault = .escaped f) ∧
      ((∀ f, ¬ LogCalls.Escape s.world.calls f) → s.world.Agrees →
        (after.2.configured = true ↔ ∃ files, made = .ok files))) ∧
    ∀ handler ∈ handlersOf es, ∀ f, folderFor handler = .error f → after.2.configured = false := by
  intro made result after
  have haccounted (hdirect : LogSettings.Direct es) (files : FileTree) (fault : LogFault)
      (hfault : (result files).1 = some fault) : fault.Accounted s.world.calls :=
    accounted_of_accepted haccepted hdirect hfault
  have hready (hdirect : LogSettings.Direct es) (hcalls : ∀ f, ¬ LogCalls.Escape s.world.calls f)
      (files : FileTree) (fault : LogFault) (hfault : (result files).1 = some fault) : fault.Answered := by
    rcases haccounted hdirect files fault hfault with hanswered | ⟨f, hescape, -⟩
    · exact hanswered
    · exact absurd hescape (hcalls f)
  rcases setUp_cases haccepted hfree hnew with
    ⟨files, given, hmade, hanswered, hheard, htold⟩ | ⟨f, t, warned, hfailed, hstate, hwarnings, hcause⟩
  · have htells : (after.1, after.2) = tellSetUp.run { (s.applied (result files)).2 with
        taken := some given, manager := some given, configured := true } := htold
    obtain ⟨hstate, hwarnings, hanswers⟩ := tellSetUp_kept htells
    have hset : after.2.configured = true := (setUpState_eq.mp hstate).2.2
    have hworld : (s.applied (result files)).2.world = s.world := congrArg Prod.snd (held_applied s (result files))
    refine ⟨⟨fun _ => ⟨files, hmade, hanswered, hheard⟩, fun _ => hset⟩, ?_, ?_,
      fun hdirect => ⟨haccounted hdirect, fun _ _ => ⟨fun _ => ⟨files, hmade⟩, fun _ => hset⟩⟩, ?_⟩
    · intro files' hmade' _
      obtain rfl : files = files' := Except.ok.inj (hmade.symm.trans hmade')
      exact ⟨hwarnings.trans (warnings_applied s (result files)), ⟨given, htold⟩,
        fun hagrees => hanswers (hworld.symm ▸ hagrees)⟩
    · intro hnot
      cases hset.symm.trans hnot
    · intro handler hmem f hrefused
      exact absurd hmade (foldlM_of_folderFor hmem hrefused s.board.files files)
  · have hunset : after.2.configured = false := by
      show ((setUp (.document es)).run s).2.configured = false
      rw [hfailed]
      exact (setUpState_eq.mp hstate).2.2.trans hnew
    have hnot : after.2.configured ≠ true := by simp [hunset]
    refine ⟨⟨fun h => absurd h hnot, ?_⟩, fun _ _ h => absurd h hnot, fun _ => ?_,
      fun hdirect => ⟨haccounted hdirect, fun hcalls hagrees => ⟨fun h => absurd h hnot, ?_⟩⟩, fun _ _ _ _ => hunset⟩
    · rintro ⟨files, hmade, hanswered, hheard⟩
      exact (hcause.excluded hmade hanswered hheard).elim
    · rw [show after = (.error f, t) from hfailed]
      exact ⟨f, warned, rfl, hstate, hwarnings, hcause⟩
    · rintro ⟨files, hmade⟩
      exact (hcause.excluded hmade (hready hdirect hcalls files) (applied_of_agrees hagrees _)).elim

end

/-- A class that cannot be found is answered by a handler for the root logger and a warning. A file name that is a
number is accepted as well, and stops the set-up. -/
theorem setUp_of_accepted_number :
    let unknown := Value.document [(.text "class", .text "no.such.Handler")]
    let numbered := Value.document [(.text "class", .text "logging.FileHandler"), (.text "filename", .int 5)]
    let config (handler : Value) : Entries := [(.text "handlers", .document [(.text "h", handler)])]
    let answer := ((setUp (.document (config unknown))).run {}).1
    let fallen := ((setUp (.document (config unknown))).run {}).2
    let stopped := ((setUp (.document (config numbered))).run {}).2
    (answer = .ok () ∧ fallen.configured = true ∧ fallen.warnings =
      ["Failed to configure logging with provided settings: Unable to configure handler 'h'"]) ∧
    stopped.configured = false := by
  intro unknown numbered config answer fallen stopped
  have haccepted (handler : Value) : LogSettings.ofEntries [] (config handler) =
      .accepted { handlers := [(.text "h", handler)] } := rfl
  have hmade : (handlersOf (config unknown)).foldlM folderMade ({} : FileTree) = .ok {} := rfl
  have hfault : (application Outside.called {} (config unknown)).1 = some (.handler "'h'") := by decide +kernel
  have hagrees : ({} : Logging).world.Agrees := fun _ _ => rfl
  obtain ⟨hconfigured, hset, -⟩ := setUp_of_accepted (haccepted unknown) (s := {}) rfl rfl
  obtain ⟨-, -, -, -, hrefused⟩ := setUp_of_accepted (haccepted numbered) (s := {}) rfl rfl
  have hanswered : ∀ fault, (application Outside.called {} (config unknown)).1 = some fault → fault.Answered := by
    intro fault h
    obtain rfl := Option.some.inj (hfault.symm.trans h)
    rfl
  have hfallen : fallen.configured = true := hconfigured.mpr ⟨{}, hmade, hanswered, applied_of_agrees hagrees _⟩
  obtain ⟨hwarned, -, hanswer⟩ := hset {} hmade hfallen
  have hwarning : fallen.warnings =
      [] ++ ((application Outside.called {} (config unknown)).1.map fallbackWarning).toList := hwarned
  rw [hfault] at hwarning
  exact ⟨⟨hanswer hagrees, hfallen, hwarning⟩, hrefused numbered (List.mem_singleton.mpr rfl) .wrongKind rfl⟩

end Logging

end FileDepot
