import FileDepot.Proofs.Command.Steps
import FileDepot.Proofs.Store.History

/-!
# Command lines as actions on a store

Whatever a command line does with the session and the files, the store changes by at most one action on it. So a
run of actions and command lines at a desk is, for the store, a run of actions.

Contents:

* `Command.action?`, `Command.perform_store` — what a command does to the store;
* `CommandLine.action?`, `CommandLine.run_store` — what a whole line does to it;
* `Desk.Step`, `Desk.actions`, `Desk.run_store` — a run at a desk as a run of actions;
* `Desk.receipts` — the receipts of the uploads of such a run.
-/

namespace FileDepot

/-! ## Commands -/

namespace Template

/-- The name under which a file of the file system is stored. -/
def storedName (file : String) : Option String → String
  | some name => if name = "" then FileTree.baseName file else name
  | none => FileTree.baseName file

/-- The content type that is given on a line. -/
def givenType : Option String → Value
  | some s => .text s
  | none => .null

/-- The upload of a file of the file system. -/
def fileUpload (t : Template) (content : Bytes) (file : String) (name contentType : Option String)
    (pairs : List (String × String)) : Store.Action :=
  .store t (some content) (.text (storedName file name)) (givenType contentType) (metadataOfPairs pairs)

/-- Where nobody listens a storing is the upload alone. -/
theorem storeTelling_run (t : Template) (content : Option Bytes) (filename contentType metadata : Value)
    (s : Store) :
    (t.storeTelling unheard content filename contentType metadata).run s =
      (t.store content filename contentType metadata).run s := by
  rw [storeTelling, Step.run_bind, onStore_self]
  rcases (t.store content filename contentType metadata).run s with ⟨answer, s'⟩
  cases answer <;> rfl

/-- A file of the file system is uploaded once its metadata and its content have been read. -/
theorem storeFile_run (t : Template) (files : FileTree) (file : String) (name contentType : Option String)
    (entries : List String) (s : Store) :
    (t.storeFileTelling unheard files file name contentType entries).run s =
      match MetadataPairs.read entries, files.read file with
      | .error e, _ => (.error e, s)
      | .ok _, .error e => (.error e, s)
      | .ok pairs, .ok content =>
        let stored := (t.store (some content) (.text (storedName file name)) (givenType contentType)
          (metadataOfPairs pairs)).run s
        (stored.1.map (·.id), stored.2) := by
  unfold storeFileTelling
  simp only [onStore_self]
  rw [Step.run_bind, Step.run_liftM]
  cases MetadataPairs.read entries with
  | error e => rfl
  | ok pairs =>
    simp only
    rw [Step.run_bind, Step.run_liftM]
    cases files.read file with
    | error e => rfl
    | ok content =>
      simp only
      rw [Step.run_then_pure, storeTelling_run]
      rfl

end Template

namespace Command

/-- The action on the store that a command comes to, if it comes to one. -/
def action? (t : Template) (files : FileTree) : Command → Option Store.Action
  | .put file name contentType entries =>
    match MetadataPairs.read entries, files.read file with
    | .ok pairs, .ok content => some (t.fileUpload content file name contentType pairs)
    | _, _ => none
  | .get name _ => some (.resource t name)
  | .list pattern =>
    match pattern.filter (· ≠ "") with
    | none => (({} : Query).sortBy (.text "filename") (.int 1)).toOption.map fun q => .find t (some q)
    | some pattern => some (.resources t (some pattern))
  | .remove pattern => (Template.removalQuery pattern).toOption.map fun q => .delete t (some q)

/-- The store that an optional action leaves. -/
def storeAfter (s : Store) (a : Option Store.Action) : Store :=
  a.elim s (Store.Action.after s)

theorem fetch_store (t : Template) (name : String) (d : Desk) :
    ((fetch Session.unheard t name).run d).2.store = Store.Action.after d.store (.resource t name) := by
  rw [fetch_run (heard_unheard t d (.get name none)), Store.Action.after]
  rcases (t.resource name).run d.store with ⟨answer, s⟩
  cases answer with
  | error e => rfl
  | ok found => cases found <;> rfl

/-- Writing a file of the file system leaves the store as it is. -/
theorem writeFile_store (path : String) (content : Bytes) (d : Desk) :
    ((Desk.writeFile path content).run d).2.store = d.store := by
  rw [Desk.writeFile, Step.run_bind, Step.run_get]
  simp only
  rw [Step.run_bind, Step.run_liftM]
  cases d.session.files.write path content <;> rfl

/-- What a listing of a pattern, or of all files, leaves in the store. -/
theorem list_store (t : Template) (pattern : Option String) (d : Desk) :
    ((perform t (.list pattern)).run d).2.store =
      storeAfter d.store (action? t d.session.files (.list pattern)) := by
  rw [perform, action?]
  cases hgiven : pattern.filter (· ≠ "") with
  | none =>
    rw [perform_list_all_run hgiven (heard_unheard t d _)]
    simp only
    rw [Template.allByNameTelling, Step.run_bind]
    cases ({} : Query).sortBy (.text "filename") (.int 1) with
    | error e => rfl
    | ok q =>
      show ((t.find (some q) >>= fun cursor => pure (cursor.files.map StoredFile.record)).run d.store).2 = _
      rw [Step.run_then_pure]
      rfl
  | some given =>
    obtain ⟨rfl, hne⟩ := Option.filter_eq_some_iff.mp hgiven
    rw [perform_list_run (by simpa using hne) (heard_unheard t d _)]
    rfl

/-- **A command changes the store by at most one action.** -/
theorem perform_store (t : Template) (c : Command) (d : Desk) :
    ((perform t c).run d).2.store = storeAfter d.store (c.action? t d.session.files) := by
  cases c with
  | put file name contentType entries =>
    rw [perform, perform_put_run (heard_unheard t d _), t.storeFile_run, action?]
    cases MetadataPairs.read entries with
    | error e => rfl
    | ok pairs => cases d.session.files.read file <;> rfl
  | get name output =>
    have hfetched := fetch_store t name d
    rw [perform, performTelling, Step.run_bind]
    rcases hrun : (fetch Session.unheard t name).run d with ⟨answer, d'⟩
    rw [hrun] at hfetched
    cases answer with
    | error e => exact hfetched
    | ok fetched =>
      simp only
      cases output.filter (· ≠ "") with
      | none => exact hfetched
      | some path =>
        have hwritten := writeFile_store path fetched.2 d'
        simp only
        rw [Step.run_then_pure]
        exact hwritten.trans hfetched
  | list pattern => exact list_store t pattern d
  | remove pattern =>
    rw [perform, perform_remove_run (heard_unheard t d _), Template.removal, Template.removalTelling, Step.run_bind,
      action?]
    cases Template.removalQuery pattern <;> rfl

end Command

/-! ## Lines -/

/-- The action on the store that a line comes to at a desk, if it comes to one. -/
def CommandLine.action? (d : Desk) (line : List String) : Option Store.Action :=
  match CommandLine.read d.session.files line with
  | .error _ => none
  | .ok l =>
    match (Desk.openDepot l.config l.bucket).run d with
    | (.error _, _) => none
    | (.ok depot, d) =>
      match l.command.read d.session.files l.rest with
      | .error _ => none
      | .ok command => command.action? depot.template d.session.files

/-- **A line changes the store by at most one action**, whether or not it is carried out. -/
theorem CommandLine.run_store (line : List String) (d : Desk) :
    ((run line).run d).2.store = Command.storeAfter d.store (action? d line) := by
  rw [run, run_run, action?]
  cases CommandLine.read d.session.files line with
  | error u => rfl
  | ok l =>
    have hopened := Desk.openDepotTelling_store Session.unheard l.config l.bucket d
    simp only [Desk.openDepot]
    rcases hrun : (Desk.openDepotTelling Session.unheard l.config l.bucket).run d with ⟨answer, d'⟩
    rw [hrun] at hopened
    cases answer with
    | error f => exact hopened
    | ok depot =>
      simp only
      cases l.command.read d'.session.files l.rest with
      | error u => exact hopened
      | ok command =>
        have hperformed := command.perform_store depot.template d'
        rw [hopened] at hperformed
        exact hperformed

/-! ## Runs at a desk -/

namespace Desk

/-- What can happen at a desk: an action on its store, or a command line. -/
inductive Step
  | action (a : Store.Action)
  | line (words : List String)

/-- The desk that a step leaves. -/
def Step.after (d : Desk) : Step → Desk
  | .action a => { d with store := a.after d.store }
  | .line words => ((CommandLine.run words).run d).2

/-- The action on the store that a step comes to, if it comes to one. -/
def Step.action? (d : Desk) : Step → Option Store.Action
  | .action a => some a
  | .line words => CommandLine.action? d words

/-- The actions on the store that steps come to. -/
def actions (d : Desk) : List Step → List Store.Action
  | [] => []
  | step :: steps => (step.action? d).toList ++ actions (step.after d) steps

/-- The receipts of the uploads among steps. -/
def receipts (d : Desk) (steps : List Step) : List Receipt :=
  d.store.receipts (d.actions steps)

theorem Step.after_store (d : Desk) (step : Step) :
    (step.after d).store = Command.storeAfter d.store (step.action? d) := by
  cases step with
  | action a => rfl
  | line words => exact CommandLine.run_store words d

/-- **A run at a desk is a run of actions on its store.** -/
theorem run_store (d : Desk) (steps : List Step) :
    (steps.foldl Step.after d).store = (d.actions steps).foldl Store.Action.after d.store := by
  induction steps generalizing d with
  | nil => rfl
  | cons step steps ih =>
    have hstep := Step.after_store d step
    rw [List.foldl_cons, ih, actions, List.foldl_append, hstep]
    cases step.action? d <;> rfl

end Desk

end FileDepot
