import FileDepot.Proofs.Command.Names
import FileDepot.Proofs.Command.Reading
import FileDepot.Proofs.Metadata.Pairs
import FileDepot.Proofs.Store.Ordering

/-!
# How lines end

A line ends well, is not well formed, or fails with something that its command reports. There are four gaps: a
text that can be no path, a depot that does not open, a pattern whose expression cannot be read, and a message that
whoever listens refuses. What comes through one of them is caught by no command.

Contents:

* `FileTree.read_error`, `FileTree.write_error`, `MetadataPairs.read_error` — failures that have words;
* `Command.Told` — an answer that a command gives or reports;
* `Command.glob?`, `Command.fault?` — what the store refuses of a command;
* `Command.perform_told`, `Command.perform_fault`, `Command.perform_refused` — how commands are carried out;
* `CommandLine.Escapes`, `CommandLine.run_of_escapes` — what comes through the gaps;
* `CommandLine.run_outcome` — how every line ends.
-/

namespace FileDepot

/-! ## Failures that have words -/

namespace FileTree

theorem failureAt_origin (path : String) (o : Obstacle) :
    (failureAt path o).origin = .fileSystem ∧ (failureAt path o).text?.isSome = true := by
  cases o <;> exact ⟨rfl, rfl⟩

/-- A file that cannot be read fails for its path or for the file system, and the failure has words. -/
theorem read_error {t : FileTree} {path : String} {f : Failure} (h : t.read path = .error f) :
    (f.origin = .value ∨ f.origin = .fileSystem) ∧ f.text?.isSome = true := by
  unfold read at h
  split at h
  next hfault =>
    obtain rfl := Except.error.inj h
    unfold pathFault? at hfault
    split at hfault
    · obtain rfl := Option.some.inj hfault
      exact ⟨.inl rfl, rfl⟩
    · cases hfault
  next o _ _ =>
    obtain rfl := Except.error.inj h
    obtain ⟨horigin, htext⟩ := failureAt_origin path o
    exact ⟨.inr horigin, htext⟩
  next =>
    split at h
    · cases h
    · obtain rfl := Except.error.inj h
      exact ⟨.inr rfl, rfl⟩
    · obtain rfl := Except.error.inj h
      exact ⟨.inr rfl, rfl⟩

/-- A file that cannot be written at a path fails for the file system, and the failure has words. -/
theorem write_error {t : FileTree} {path : String} {content : Bytes} {f : Failure}
    (hpath : pathFault? path = none) (h : t.write path content = .error f) :
    f.origin = .fileSystem ∧ f.text?.isSome = true := by
  have hwritable : t.writable path = .error f := by
    unfold write at h
    cases hwritable : t.writable path with
    | ok p =>
      rw [hwritable] at h
      cases h
    | error g =>
      rw [hwritable] at h
      rw [Except.error.inj h]
  unfold writable at hwritable
  rw [hpath] at hwritable
  cases hlocate : t.locate path with
  | error o =>
    simp only [hlocate] at hwritable
    split at hwritable
    · split at hwritable
      · obtain rfl := Except.error.inj hwritable
        exact ⟨rfl, rfl⟩
      · obtain rfl := Except.error.inj hwritable
        exact failureAt_origin _ _
    · obtain rfl := Except.error.inj hwritable
      exact failureAt_origin _ _
  | ok p =>
    simp only [hlocate] at hwritable
    split at hwritable
    · obtain rfl := Except.error.inj hwritable
      exact ⟨rfl, rfl⟩
    · cases hwritable
    · split at hwritable
      · obtain rfl := Except.error.inj hwritable
        exact ⟨rfl, rfl⟩
      · cases hwritable

end FileTree

/-- A text that is no pair is what fails. -/
theorem MetadataPairs.read_error {items : List String} {f : Failure} (h : read items = .error f) :
    ∃ item, f = refusal item := by
  obtain ⟨_, item, _, -, -, -, hrefusal⟩ := readInto_eq_error.mp h
  exact ⟨item, hrefusal⟩

/-! ## Commands -/

/-- What is given on a line always makes a metadata document. -/
theorem Template.metadataOf_given (t : Template) (contentType : Option String) (pairs : List (String × String)) :
    ∃ es, t.metadataOf (givenType contentType) (metadataOfPairs pairs) = .ok es := by
  obtain ⟨gives, hgives⟩ : ∃ gives, givesContentType (givenType contentType) = .ok gives := by
    cases contentType with
    | none => exact ⟨false, rfl⟩
    | some s =>
      unfold givenType givesContentType
      cases (Value.text s).truthy <;> exact ⟨_, rfl⟩
  unfold metadataOf
  rw [hgives]
  cases pairs <;> exact ⟨_, rfl⟩

/-- A listing of all files sorts names, which can always be compared. -/
theorem Template.allByName_ok (t : Template) {s : Store} (hs : s.Sound) :
    ∃ records, ((t.allByNameTelling unheard).run s).1 = .ok records := by
  have hsort : ({} : Query).sortBy (.text "filename") (.int 1) = .ok { sort := [(.text "filename", .int 1)] } := rfl
  have hlookup : lookupFor (some { sort := [(.text "filename", .int 1)] }) =
      .ok { sort := [(.text "filename", 1)] } :=
    told_of_writable (l := { sort := [(.text "filename", 1)] }) rfl rfl
  let files := (s.bucket t.bucketName).files
  have hcompares : Sorting.Orders (Sorting.byField StoredFile.document "filename" false)
      (files.filter fun _ => true) := by
    refine Sorting.orders_of_key Value.precedes_of_text fun f _ => ?_
    rw [Sorting.fieldAt, f.document_filename]
    rfl
  have haccepts : ∀ f ∈ files, Filter.accepts s.engine f.document [] = .ok true := fun _ _ => rfl
  obtain ⟨listed, -, -, hpages⟩ :=
    Bucket.lookup_inOrder (hs t.bucketName) haccepts [("filename", 1)] (List.forall_mem_singleton.mpr hcompares)
  rw [allByNameTelling, Step.run_bind, onStore_self, Step.run_liftM, hsort]
  simp only
  show ∃ records, ((t.find _ >>= fun cursor => pure (cursor.files.map StoredFile.record)).run s).1 = .ok records
  rw [Step.run_then_pure, find_run, hlookup]
  simp only
  have hlisted : (s.bucket t.bucketName).lookup s.engine { sort := [(.text "filename", 1)] } = .ok listed :=
    hpages (.int 0) (.int 0)
  rw [hlisted]
  exact ⟨_, rfl⟩

namespace Command

/-- The pattern with a wildcard that a command looks for. -/
def glob? : Command → Option Glob
  | .list (some p) | .remove p =>
    if (Glob.withSeparator p none).hasWildcard then some (Glob.withSeparator p none) else none
  | .list none | .put .. | .get .. => none

theorem glob?_eq_some {c : Command} {g : Glob} (h : c.glob? = some g) :
    ∃ p, g = Glob.withSeparator p none ∧ (Glob.withSeparator p none).hasWildcard = true ∧
      (c = .list (some p) ∨ c = .remove p) := by
  unfold glob? at h
  split at h
  next p =>
    split at h
    next hwild => exact ⟨p, (Option.some.inj h).symm, hwild, .inl rfl⟩
    next => cases h
  next p =>
    split at h
    next hwild => exact ⟨p, (Option.some.inj h).symm, hwild, .inr rfl⟩
    next => cases h
  all_goals cases h

/-- What the store refuses of a command: an expression that cannot be read, once there is a name to search. -/
def fault? (t : Template) (s : Store) (c : Command) : Option Failure :=
  c.glob?.bind fun g =>
    match Regex.read g.expressionChars with
    | .ok _ => none
    | .error e => if (s.bucket t.bucketName).files.isEmpty then none else some (g.refusal e)

theorem fault?_eq_some {t : Template} {s : Store} {c : Command} {f : Failure} :
    c.fault? t s = some f ↔
      ∃ g e, c.glob? = some g ∧ Regex.read g.expressionChars = .error e ∧
        (s.bucket t.bucketName).files.isEmpty = false ∧ f = g.refusal e := by
  unfold fault?
  cases hg : c.glob? with
  | none => simp
  | some g =>
    rw [Option.bind_some]
    cases hread : Regex.read g.expressionChars with
    | ok r => simp [hread]
    | error e => cases hempty : (s.bucket t.bucketName).files.isEmpty <;> simp [hread, eq_comm]

/-- Where nothing is refused, a bucket is empty or the expression can be read. -/
theorem empty_of_fault? {t : Template} {s : Store} {c : Command} {g : Glob} (hfault : c.fault? t s = none)
    (hg : c.glob? = some g) (e : Regex.Error) (hread : Regex.read g.expressionChars = .error e) :
    (s.bucket t.bucketName).files.isEmpty = true := by
  by_contra hfiles
  have hsome := fault?_eq_some.mpr ⟨g, e, hg, hread, by simpa using hfiles, rfl⟩
  rw [hfault] at hsome
  cases hsome

/-- The command succeeds, or fails with something that it reports and that has words. -/
inductive Told (c : Command) : Except Failure Bytes → Prop
  | done (printed : Bytes) : Told c (.ok printed)
  | failed {f : Failure} (hreports : c.reports f = true) (htext : f.text?.isSome = true) : Told c (.error f)

section

variable {hears : LogMessage → SessionM Unit} {t : Template} {d : Desk}

theorem put_told {file : String} {name contentType : Option String} {entries : List String}
    (hheard : (put file name contentType entries).Heard hears t d) :
    Told (.put file name contentType entries)
      ((performTelling hears t (.put file name contentType entries)).run d).1 := by
  rw [perform_put_run hheard, t.storeFile_run]
  cases hpairs : MetadataPairs.read entries with
  | error f =>
    obtain ⟨item, rfl⟩ := MetadataPairs.read_error hpairs
    exact .failed rfl rfl
  | ok pairs =>
    cases hread : d.session.files.read file with
    | error f =>
      obtain ⟨horigin, htext⟩ := FileTree.read_error hread
      refine .failed ?_ htext
      rcases horigin with horigin | horigin <;> simp [reports, horigin]
    | ok content =>
      obtain ⟨es, hes⟩ := t.metadataOf_given contentType pairs
      simp only
      rw [t.store_run, hes]
      exact .done _

theorem get_told (hs : d.store.Sound) {name : String} {output : Option String}
    (hheard : (get name output).Heard hears t d)
    (hpath : ∀ path, output = some path → FileTree.pathFault? path = none) :
    Told (.get name output) ((performTelling hears t (.get name output)).run d).1 := by
  have hfound := t.resource_byName name hs
  have hfetch := fetch_run hheard
  rw [performTelling, Step.run_bind, hfetch]
  simp only [hfound]
  cases hnamed : ((d.store.bucket t.bucketName).named name).head? with
  | none => exact .failed rfl rfl
  | some first =>
    have hcontent : (Resource.read ⟨first.record, (d.store.bucket t.bucketName).streamOf name, false⟩
        (.int (-1))).2 = .ok ((d.store.bucket t.bucketName).streamOf name).remaining := rfl
    simp only [Option.map_some, hcontent, Except.map]
    cases houtput : output.filter (· ≠ "") with
    | none => exact .done _
    | some path =>
      have hgiven : output = some path := (Option.filter_eq_some_iff.mp houtput).1
      simp only
      rw [Step.run_then_pure, Desk.writeFile, Step.run_bind, Step.run_get]
      simp only
      rw [Step.run_bind, Step.run_liftM]
      cases hwrite : FileTree.write _ path _ with
      | ok files => exact .done _
      | error f =>
        obtain ⟨horigin, htext⟩ := FileTree.write_error (hpath path hgiven) hwrite
        exact .failed (by simp [reports, horigin]) htext

/-- All files are listed. -/
theorem list_all_told (hs : d.store.Sound) {pattern : Option String} (hnone : pattern.filter (· ≠ "") = none)
    (hheard : (list pattern).Heard hears t d) :
    Told (.list pattern) ((performTelling hears t (.list pattern)).run d).1 := by
  obtain ⟨records, hrecords⟩ := t.allByName_ok hs
  rw [perform_list_all_run hnone hheard]
  simp only [hrecords]
  exact .done _

/-- A name is listed whatever it is. -/
theorem list_name_told (hs : d.store.Sound) {p : String} (hname : (Glob.withSeparator p none).hasWildcard = false)
    (hheard : (list (some p)).Heard hears t d) :
    Told (.list (some p)) ((performTelling hears t (.list (some p))).run d).1 := by
  by_cases hp : p = ""
  · exact list_all_told hs (by simp [hp]) hheard
  · rw [perform_list_run hp hheard]
    cases hblank : Text.isBlankText p with
    | true =>
      rw [t.resources_run_blank (by simpa using hblank)]
      exact .done _
    | false =>
      simp only [(t.resources_of_name hs hblank hname).1]
      exact .done _

theorem remove_name_told (hs : d.store.Reachable) {p : String}
    (hname : (Glob.withSeparator p none).hasWildcard = false) (hheard : (remove p).Heard hears t d) :
    Told (.remove p) ((performTelling hears t (.remove p)).run d).1 := by
  rw [perform_remove_run hheard, Template.removal_run_name hname]
  simp only
  rw [(t.delete_byName hs p).1]
  exact .done _

/-- A pattern whose expression cannot be read stops a listing if there is a file. -/
theorem list_unreadable {p : String} {e : Regex.Error} (hwild : (Glob.withSeparator p none).hasWildcard = true)
    (hread : Regex.read (Glob.withSeparator p none).expressionChars = .error e)
    (hheard : (list (some p)).Heard hears t d) :
    ((performTelling hears t (.list (some p))).run d).1 =
      if (d.store.bucket t.bucketName).files.isEmpty then .ok []
      else .error ((Glob.withSeparator p none).refusal e) := by
  have hfound := t.find_unreadable hread (d.store.asked t.bucketName)
  rw [perform_list_run (Glob.ne_empty_of_hasWildcard hwild) hheard,
    t.resources_run_pattern (Glob.isBlankText_of_hasWildcard hwild) hwild]
  generalize (t.find (some (Template.byExpression (Glob.withSeparator p none).expression))).run
    (d.store.asked t.bucketName) = found at hfound ⊢
  obtain ⟨answer, s⟩ := found
  rw [Store.bucket_asked] at hfound
  obtain rfl : answer = _ := hfound
  cases (d.store.bucket t.bucketName).files.isEmpty <;> rfl

/-- It stops a removal as well. -/
theorem remove_unreadable {p : String} {e : Regex.Error} (hwild : (Glob.withSeparator p none).hasWildcard = true)
    (hread : Regex.read (Glob.withSeparator p none).expressionChars = .error e)
    (hheard : (remove p).Heard hears t d) :
    ((performTelling hears t (.remove p)).run d).1 =
      if (d.store.bucket t.bucketName).files.isEmpty then .ok (line s!"Deleted {0} file(s)")
      else .error ((Glob.withSeparator p none).refusal e) := by
  have hfound := t.find_unreadable hread d.store
  rw [perform_remove_run hheard, Template.removal_run hwild]
  simp only
  cases hempty : (d.store.bucket t.bucketName).files.isEmpty with
  | true =>
    rw [if_pos hempty] at hfound
    obtain ⟨s, -, hrun⟩ := Template.delete_run_ok hfound
    rw [hrun]
    rfl
  | false =>
    rw [if_neg (by simpa using hempty)] at hfound
    rw [(Template.delete_run_error hfound).1]
    rfl

section

variable (hs : d.store.Reachable) {p : String} (hwild : (Glob.withSeparator p none).hasWildcard = true)
  (hreads : ∀ e, Regex.read (Glob.withSeparator p none).expressionChars = .error e →
    (d.store.bucket t.bucketName).files.isEmpty = true)

include hs hwild hreads

/-- A pattern is listed if its expression can be read or there is no file. -/
theorem list_pattern_told (hheard : (list (some p)).Heard hears t d) :
    Told (.list (some p)) ((performTelling hears t (.list (some p))).run d).1 := by
  cases hread : Regex.read (Glob.withSeparator p none).expressionChars with
  | error e =>
    rw [list_unreadable hwild hread hheard, if_pos (hreads e hread)]
    exact .done _
  | ok r =>
    rw [perform_list_run (Glob.ne_empty_of_hasWildcard hwild) hheard]
    simp only [(Template.resources_of_pattern hread hs.sound hwild).1]
    exact .done _

/-- It is removed then as well. -/
theorem remove_pattern_told (hheard : (remove p).Heard hears t d) :
    Told (.remove p) ((performTelling hears t (.remove p)).run d).1 := by
  cases hread : Regex.read (Glob.withSeparator p none).expressionChars with
  | error e =>
    rw [remove_unreadable hwild hread hheard, if_pos (hreads e hread)]
    exact .done _
  | ok r =>
    rw [perform_remove_run hheard, Template.removal_run hwild]
    simp only
    rw [(Template.delete_byExpression hread hs).1]
    exact .done _

end

/-- A path that a command is to write to can be one. -/
def PathFits : Command → Prop
  | .get _ output => ∀ path, output = some path → FileTree.pathFault? path = none
  | .put .. | .list _ | .remove _ => True

/-- **What neither the store nor a listener refuses is told.** -/
theorem perform_told (hs : d.store.Reachable) {c : Command} (hpath : c.PathFits) (hheard : c.Heard hears t d)
    (hfault : c.fault? t d.store = none) : Told c ((performTelling hears t c).run d).1 := by
  cases c with
  | put file name contentType entries => exact put_told hheard
  | get name output => exact get_told hs.sound hheard hpath
  | list pattern =>
    cases pattern with
    | none => exact list_all_told hs.sound rfl hheard
    | some p =>
      cases hwild : (Glob.withSeparator p none).hasWildcard with
      | false => exact list_name_told hs.sound hwild hheard
      | true => exact list_pattern_told hs hwild (empty_of_fault? hfault (if_pos hwild)) hheard
  | remove p =>
    cases hwild : (Glob.withSeparator p none).hasWildcard with
    | false => exact remove_name_told hs hwild hheard
    | true => exact remove_pattern_told hs hwild (empty_of_fault? hfault (if_pos hwild)) hheard

/-- **What the store refuses is the answer**, and no command reports it. -/
theorem perform_fault {c : Command} {f : Failure} (hheard : c.Heard hears t d) (hfault : c.fault? t d.store = some f) :
    ((performTelling hears t c).run d).1 = .error f ∧ c.reports f = false := by
  obtain ⟨g, e, hg, hread, hfiles, rfl⟩ := fault?_eq_some.mp hfault
  obtain ⟨p, rfl, hwild, hc⟩ := glob?_eq_some hg
  rcases hc with rfl | rfl
  · rw [list_unreadable hwild hread hheard, if_neg (by simp [hfiles])]
    exact ⟨rfl, rfl⟩
  · rw [remove_unreadable hwild hread hheard, if_neg (by simp [hfiles])]
    exact ⟨rfl, rfl⟩

/-- **What a listener refuses is the answer**, whether or not the command reports it. -/
theorem perform_refused {c : Command} {f : Failure} (hrefused : (c.hearing hears t d).1 = .error f) :
    ((performTelling hears t c).run d).1 = .error f := by
  cases c with
  | put file name contentType entries =>
    have hfiles : Desk.files.run d = (.ok d.session.files, d) := rfl
    rw [performTelling, Step.run_bind, hfiles]
    exact Step.failed_bind ((t.tells_storeFile hears _ _ _ _ _).run_refused hrefused) _
  | get name output =>
    rw [performTelling, fetch]
    exact Step.failed_bind (Step.failed_bind ((t.tells_resource hears name).run_refused hrefused) _) _
  | list pattern =>
    rw [performTelling, listing]
    refine Step.failed_bind ?_ _
    cases hgiven : pattern.filter (· ≠ "") with
    | none =>
      simp only [hearing, messages, hgiven] at hrefused
      exact (t.tells_allByName hears).run_refused hrefused
    | some p =>
      simp only [hearing, messages, hgiven] at hrefused
      obtain ⟨s, hrun⟩ := (t.tells_resources hears (some p)).refused d f _ (Prod.ext hrefused rfl)
      simp only
      rw [Step.run_bind, Step.run_lift, hrun]
      rfl
  | remove p =>
    rw [performTelling]
    exact Step.failed_bind ((t.tells_removal hears p).run_refused hrefused) _

end

end Command

/-! ## Lines -/

/-- A depot that cannot be opened has not been open. -/
theorem Desk.openDepotTelling_error {hears : LogMessage → SessionM Unit} {d : Desk} {config bucket : Option String}
    {f : Failure} :
    ((openDepotTelling hears config bucket).run d).1 = .error f ↔
      d.depot = none ∧ ((Session.openTelling hears config bucket).run d.session).1 = .error f := by
  rw [openDepotTelling_run]
  cases d.depot with
  | some depot => exact ⟨fun h => (nomatch h), fun h => (nomatch h.1)⟩
  | none =>
    generalize (Session.openTelling hears config bucket).run d.session = opened
    obtain ⟨answer, session⟩ := opened
    cases answer with
    | error g => exact ⟨fun h => ⟨rfl, h⟩, fun h => h.2⟩
    | ok depot => exact ⟨fun h => (nomatch h), fun h => (nomatch h.2)⟩

theorem CommandName.pathFault?_of_checkPath {path : String} {u : Unit} (h : checkPath (some path) = .ok u) :
    FileTree.pathFault? path = none := by
  unfold checkPath at h
  rw [Option.bind_some] at h
  cases hfault : FileTree.pathFault? path with
  | none => rfl
  | some f =>
    rw [hfault] at h
    cases h

/-- A path to be written to is looked at when the words of a command are read. -/
theorem CommandName.ofArguments_pathFits {n : CommandName} {files : FileTree} {a : Arguments} {c : Command}
    (h : ofArguments files a n = .ok c) : c.PathFits := by
  cases n with
  | put =>
    obtain ⟨_, -, h⟩ := bind_eq_ok.mp h
    obtain ⟨file, -, h⟩ := bind_eq_ok.mp h
    split at h
    · obtain rfl := Except.ok.inj h
      trivial
    · cases h
  | get =>
    obtain ⟨_, hfits, h⟩ := bind_eq_ok.mp h
    obtain ⟨name, -, h⟩ := bind_eq_ok.mp h
    split at h
    · obtain rfl := Except.ok.inj h
      exact fun _ hnone => nomatch hnone
    next given hgiven =>
      split at h
      · cases h
      · obtain rfl := Except.ok.inj h
        rintro path hpath
        obtain rfl := Option.some.inj hpath
        rw [hgiven] at hfits
        exact pathFault?_of_checkPath hfits
  | list =>
    obtain ⟨pattern, -, h⟩ := bind_eq_ok.mp h
    obtain rfl := Except.ok.inj h
    trivial
  | remove =>
    obtain ⟨pattern, -, h⟩ := bind_eq_ok.mp h
    obtain rfl := Except.ok.inj h
    trivial

theorem CommandName.read_pathFits {n : CommandName} {files : FileTree} {words : List String} {c : Command}
    (h : n.read files words = .ok c) : c.PathFits := by
  unfold CommandName.read at h
  split at h
  · cases h
  · split at h
    · cases h
    · exact ofArguments_pathFits h

namespace Outcome

/-- The line ends well, is not well formed, or reports why it has failed, with the words of the failure if it has
any. -/
def Told (o : Outcome) : Prop :=
  o.exitCode = 0 ∨ o.exitCode = 2 ∨
    ∃ f text, o = .reported f ∧ (∀ words, f.text? = some words → text = words) ∧ o.exitCode = 1 ∧
      o.report = s!"Error: {text}\n"

/-- A failure that nothing has caught ends a line with the code of a failure, unless it is the end of the program that
has been asked for. -/
theorem exitCode_escaped (f : Failure) : (escaped f).exitCode = if f = .ended then 0 else 1 := by
  cases f <;> rfl

theorem told_escaped (f : Failure) : (escaped f).Told ↔ f = .ended := by
  constructor
  · rintro (hcode | hcode | ⟨g, text, hreported, -⟩)
    · by_contra hother
      rw [exitCode_escaped, if_neg hother] at hcode
      cases hcode
    · rw [exitCode_escaped] at hcode
      split at hcode <;> cases hcode
    · cases hreported
  · rintro rfl
    exact .inl rfl

/-- The line tells how it ends, and nothing has come through. -/
def Caught (o : Outcome) : Prop :=
  o.Told ∧ ∀ f, o ≠ .escaped f

theorem caught_reported (f : Failure) : (reported f).Caught := by
  refine ⟨.inr (.inr ⟨f, f.text?.getD default, rfl, ?_, rfl, rfl⟩), fun _ h => nomatch h⟩
  rintro words hwords
  rw [hwords]
  rfl

/-- Words that make no command end a line well or are not well formed, unless one of them can be no path. -/
theorem caught_ofUsage (u : Usage) : (ofUsage u).Caught ∨ ∃ f, u = .badPath f := by
  cases u with
  | help => exact .inl ⟨.inl rfl, fun _ h => nomatch h⟩
  | misuse reason => exact .inl ⟨.inr (.inl rfl), fun _ h => nomatch h⟩
  | badPath f => exact .inr ⟨f, rfl⟩

theorem caught_ofAnswer {c : Command} {answer : Except Failure Bytes} (h : c.Told answer) :
    (ofAnswer c answer).Caught := by
  cases h with
  | done printed => exact ⟨.inl rfl, fun _ h => nomatch h⟩
  | @failed f hreports _ =>
    rw [show ofAnswer c (.error f) = .reported f from if_pos hreports]
    exact caught_reported f

end Outcome

namespace CommandLine

section

variable (hears : LogMessage → SessionM Unit)

/-- What a line fails with and no command reports. -/
inductive Escapes (d : Desk) (line : List String) (f : Failure) : Prop
  /-- The path of a settings file that can be none. -/
  | configPath (hline : CommandLine.read d.session.files line = .error (.badPath f))
  /-- A depot that does not open. -/
  | opening {l : CommandLine} (hline : CommandLine.read d.session.files line = .ok l) (hdepot : d.depot = none)
    (hopen : ((Session.openTelling hears l.config l.bucket).run d.session).1 = .error f)
  /-- The path of a file, to be read or to be written, that can be none. -/
  | path {l : CommandLine} {depot : Depot} {d' : Desk} (hline : CommandLine.read d.session.files line = .ok l)
    (hopen : (Desk.openDepotTelling hears l.config l.bucket).run d = (.ok depot, d'))
    (hwords : l.command.read d'.session.files l.rest = .error (.badPath f))
  /-- A pattern whose expression cannot be read. -/
  | pattern {l : CommandLine} {depot : Depot} {d' : Desk} {c : Command}
    (hline : CommandLine.read d.session.files line = .ok l)
    (hopen : (Desk.openDepotTelling hears l.config l.bucket).run d = (.ok depot, d'))
    (hwords : l.command.read d'.session.files l.rest = .ok c) (hheard : c.Heard hears depot.template d')
    (hfault : c.fault? depot.template d'.store = some f)
  /-- A message that is refused with something the command does not report. -/
  | message {l : CommandLine} {depot : Depot} {d' : Desk} {c : Command}
    (hline : CommandLine.read d.session.files line = .ok l)
    (hopen : (Desk.openDepotTelling hears l.config l.bucket).run d = (.ok depot, d'))
    (hwords : l.command.read d'.session.files l.rest = .ok c)
    (hrefused : (c.hearing hears depot.template d').1 = .error f) (hreports : c.reports f = false)

variable {hears}

/-- What comes through a gap ends the line. -/
theorem run_of_escapes {d : Desk} {line : List String} {f : Failure} (h : Escapes hears d line f) :
    ((runTelling hears line).run d).1 = .escaped f := by
  rw [run_run]
  cases h with
  | configPath hline =>
    rw [hline]
    rfl
  | @opening l hline hdepot hopen =>
    have hfails := Desk.openDepotTelling_error.mpr ⟨hdepot, hopen⟩
    rw [hline]
    simp only
    rcases hrun : (Desk.openDepotTelling hears l.config l.bucket).run d with ⟨answer, d'⟩
    rw [hrun] at hfails
    obtain rfl : answer = .error f := hfails
    rfl
  | path hline hopen hwords =>
    simp only [hline, hopen, hwords]
    rfl
  | pattern hline hopen hwords hheard hfault =>
    obtain ⟨hanswer, hreports⟩ := Command.perform_fault hheard hfault
    simp only [hline, hopen, hwords, hanswer]
    exact if_neg (by simp [hreports])
  | message hline hopen hwords hrefused hreports =>
    simp only [hline, hopen, hwords, Command.perform_refused hrefused]
    exact if_neg (by simp [hreports])

/-- A line either tells how it ends, or something has come through a gap. -/
theorem caught_or_escapes {d : Desk} (hs : d.store.Reachable) (line : List String) :
    ((runTelling hears line).run d).1.Caught ∨ ∃ f, Escapes hears d line f := by
  rw [run_run]
  cases hline : CommandLine.read d.session.files line with
  | error u =>
    rcases Outcome.caught_ofUsage u with htold | ⟨f, rfl⟩
    · exact .inl htold
    · exact .inr ⟨f, .configPath hline⟩
  | ok l =>
    have hstore := Desk.openDepotTelling_store hears l.config l.bucket d
    simp only
    rcases hopen : (Desk.openDepotTelling hears l.config l.bucket).run d with ⟨answer, d'⟩
    rw [hopen] at hstore
    cases answer with
    | error f =>
      obtain ⟨hdepot, hfails⟩ := Desk.openDepotTelling_error.mp (congrArg Prod.fst hopen)
      exact .inr ⟨f, .opening hline hdepot hfails⟩
    | ok depot =>
      simp only
      cases hwords : l.command.read d'.session.files l.rest with
      | error u =>
        rcases Outcome.caught_ofUsage u with htold | ⟨f, rfl⟩
        · exact .inl htold
        · exact .inr ⟨f, .path hline hopen hwords⟩
      | ok c =>
        have hs' : d'.store.Reachable := hstore ▸ hs
        cases hhearing : (c.hearing hears depot.template d').1 with
        | error f =>
          simp only [Command.perform_refused hhearing]
          cases hreports : c.reports f with
          | true =>
            rw [show Outcome.ofAnswer c (.error f) = .reported f from if_pos hreports]
            exact .inl (Outcome.caught_reported f)
          | false => exact .inr ⟨f, .message hline hopen hwords hhearing hreports⟩
        | ok _ =>
          cases hfault : c.fault? depot.template d'.store with
          | some f => exact .inr ⟨f, .pattern hline hopen hwords hhearing hfault⟩
          | none =>
            have htold := Command.perform_told hs' (CommandName.read_pathFits hwords) hhearing hfault
            exact .inl (Outcome.caught_ofAnswer htold)

end

/-- **Every line tells how it ends, but for four gaps.** Whoever listens, it ends well, is not well formed, or reports
why it has failed, unless a text is no path, the depot does not open, the expression of a pattern cannot be read, or a
message is refused: what fails then is caught by no command, and only the end of the program that has been asked for
ends a line well even so. -/
theorem run_outcome (hears : LogMessage → SessionM Unit) {d : Desk} (hs : d.store.Reachable) (line : List String) :
    let outcome := ((runTelling hears line).run d).1
    (outcome.Told ↔ ∀ f, Escapes hears d line f → f = .ended) ∧ ∀ f, Escapes hears d line f ↔ outcome = .escaped f := by
  intro outcome
  have hends : outcome.Caught ∨ ∃ f, Escapes hears d line f := caught_or_escapes hs line
  have hescapes (f : Failure) : Escapes hears d line f ↔ outcome = .escaped f := by
    refine ⟨run_of_escapes, fun hescaped => ?_⟩
    rcases hends with ⟨-, hnone⟩ | ⟨f', hescapes⟩
    · exact absurd hescaped (hnone f)
    · have hsame : Outcome.escaped f' = .escaped f := (run_of_escapes hescapes).symm.trans hescaped
      obtain rfl := Outcome.escaped.inj hsame
      exact hescapes
  refine ⟨⟨fun htold f hf => ?_, fun hnone => ?_⟩, hescapes⟩
  · rw [(hescapes f).mp hf] at htold
    exact (Outcome.told_escaped f).mp htold
  · rcases hends with ⟨htold, -⟩ | ⟨f, hf⟩
    · exact htold
    · rw [(hescapes f).mp hf]
      exact (Outcome.told_escaped f).mpr (hnone f hf)

/-- At a desk with a file, where a handler of the root logger has no use for messages. A listing by a pattern with a
reversed range of characters fails, as the expression of the pattern cannot be read, and what is wrong with it is not
reported. A removal deletes the file and fails then, as the handler refuses to hear of it. A name that no file has is
reported. -/
theorem run_outcome_of_reversed_range :
    let depot : Depot := { connection := { client := {}, database := "db" }, template := {} }
    let uploads : List Store.Action := [.upload "fs" (.text "a") [1] none .null]
    let board : LogBoard :=
      { handlers := [{ kind := "Handler", use := .unknown }], root := { level := LogLevel.info, handlers := [0] } }
    let d : Desk :=
      { session := { logging := { board := board, world := .standard } }
        store := uploads.foldl Store.Action.after {}
        depot := some depot }
    let removed := (runAloud ["rm", "a"]).run d
    let reversed := Failure.badExpression "bad character range z-a at position 2"
    ((runAloud ["ls", "[z-a]"]).run d).1 = .escaped reversed ∧ Escapes Session.hear d ["ls", "[z-a]"] reversed ∧
      removed.1 = .escaped .unfinished ∧ Escapes Session.hear d ["rm", "a"] .unfinished ∧
      (removed.2.store.bucket "fs").files = [] ∧ ((runAloud ["get", "b"]).run d).1.Told := by
  intro depot uploads board d removed reversed
  have hs : d.store.Reachable := Store.Reachable.empty.run uploads
  have hlisted : ((runAloud ["ls", "[z-a]"]).run d).1 = .escaped reversed := by decide +kernel
  have hremoved : removed.1 = .escaped .unfinished := by decide +kernel
  have hgone : (removed.2.store.bucket "fs").files.length = 0 := by decide +kernel
  have hfetched : ((runAloud ["get", "b"]).run d).1 = .reported (.notFound "No file named 'b'") := by decide +kernel
  obtain ⟨-, hescapes⟩ := run_outcome Session.hear hs ["ls", "[z-a]"]
  obtain ⟨-, hescapes'⟩ := run_outcome Session.hear hs ["rm", "a"]
  obtain ⟨htold, hescapes''⟩ := run_outcome Session.hear hs ["get", "b"]
  refine ⟨hlisted, (hescapes _).mpr hlisted, hremoved, (hescapes' _).mpr hremoved, ?_, htold.mpr ?_⟩
  · exact List.length_eq_zero_iff.mp hgone
  · intro f hf
    have hescaped := (hescapes'' f).mp hf
    rw [show runTelling Session.hear ["get", "b"] = runAloud ["get", "b"] from rfl, hfetched] at hescaped
    cases hescaped

end CommandLine

end FileDepot
