import FileDepot.Proofs.Command.Lines
import FileDepot.Proofs.Files.Writing
import FileDepot.Proofs.Store.Reading

/-!
# Reading what has been written

After every run of uploads, deletions and command lines a name reads as it was last uploaded, among the uploads
whose files have not been deleted. So a file that has just been stored from a line is fetched as it is.

Contents:

* `Desk.openDepot_depot` — a depot that has been opened stays open;
* `CommandName.read_put`, `CommandName.read_get` — the words of an upload under a name, and of a fetch to a file;
* `CommandLine.run_put`, `CommandLine.run_get` — what these lines do;
* `Desk.read_your_writes` — what a name reads as after every run.
-/

namespace FileDepot

/-! ## Opening -/

/-- A depot that has been opened stays open. -/
theorem Desk.openDepot_depot {d d' : Desk} {depot : Depot} {config bucket : Option String}
    (h : (openDepot config bucket).run d = (.ok depot, d')) : d'.depot = some depot := by
  rw [openDepot, openDepotTelling_run] at h
  split at h
  next opened hopened =>
    obtain ⟨hanswer, rfl⟩ := Prod.mk.inj h
    rw [hopened, Except.ok.inj hanswer]
  next =>
    simp only at h
    split at h
    · obtain ⟨hanswer, rfl⟩ := Prod.mk.inj h
      exact congrArg some (Except.ok.inj hanswer)
    · cases (Prod.mk.inj h).1

/-! ## Words -/

namespace FileTree

/-- A file that can be read is there. -/
theorem read_eq_ok {t : FileTree} {path : String} {content : Bytes} (h : t.read path = .ok content) :
    pathFault? path = none ∧ t.isFile path = true := by
  unfold read at h
  cases hfault : pathFault? path with
  | some f => simp [hfault] at h
  | none =>
    cases hlocate : t.locate path with
    | error o => simp [hfault, hlocate] at h
    | ok p =>
      simp only [hfault, hlocate] at h
      cases hnode : t.node? p with
      | none => simp [hnode] at h
      | some node =>
        cases node with
        | directory => simp [hnode] at h
        | file content => simp [isFile, find?, hlocate, hnode]

/-- Where a file may be written no directory stands. -/
theorem isDirectory_of_writable {t : FileTree} {path : String} {p : Place} (h : t.writable path = .ok p) :
    t.isDirectory path = false := by
  obtain ⟨-, hlocate, hnode⟩ := writable_eq_ok h
  have hfind : t.find? path = t.node? p := by simp [find?, hlocate]
  rw [isDirectory, hfind]
  cases hthere : t.node? p with
  | none => rfl
  | some node =>
    cases node with
    | directory => exact absurd hthere hnode
    | file content => rfl

/-- An empty path leads nowhere. -/
theorem ne_empty_of_writable {t : FileTree} {path : String} {p : Place} (h : t.writable path = .ok p) :
    path ≠ "" := by
  rintro rfl
  have hlocate := (writable_eq_ok h).2.1
  simp [locate] at hlocate

end FileTree

namespace CommandName

/-- The words of an upload under a name. -/
theorem read_put {files : FileTree} {file name : String} {content : Bytes}
    (hfile : OptionWord.isOption file = false) (hread : files.read file = .ok content) :
    CommandName.put.read files [file, "--name", name] = .ok (.put file (some name) none []) := by
  obtain ⟨hfault, hthere⟩ := FileTree.read_eq_ok hread
  have hoption : OptionWord.read CommandName.put.options "--name" = .ok (.awaiting .name) := by decide +kernel
  have hscan : Arguments.scan CommandName.put.options true [file, "--name", name] =
      .ok { options := [(.name, name)], words := [file] } := by
    have hdashed : OptionWord.isOption "--name" = true := by decide +kernel
    simp [Arguments.scan, hfile, Arguments.not_isOption_dashes hfile, hdashed, hoption, Except.map,
      Arguments.withWord, Arguments.withOption]
  have hpath : checkPath (some file) = .ok () := by simp [checkPath, hfault]
  rw [read, hscan]
  show (checkPath (some file) >>= fun _ => _) = _
  rw [hpath]
  show (if files.isFile file = true then _ else _) = _
  rw [if_pos hthere]
  rfl

/-- The words of a fetch to a file. -/
theorem read_get {files : FileTree} {name out : String} {place : Place}
    (hname : OptionWord.isOption name = false) (hout : files.writable out = .ok place) :
    CommandName.get.read files [name, "-o", out] = .ok (.get name (some out)) := by
  have hfault := (FileTree.writable_eq_ok hout).1
  have hoption : OptionWord.read CommandName.get.options "-o" = .ok (.awaiting .output) := by decide +kernel
  have hscan : Arguments.scan CommandName.get.options true [name, "-o", out] =
      .ok { options := [(.output, out)], words := [name] } := by
    have hdashed : OptionWord.isOption "-o" = true := by decide +kernel
    simp [Arguments.scan, hname, Arguments.not_isOption_dashes hname, hdashed, hoption, Except.map,
      Arguments.withWord, Arguments.withOption]
  have hpath : checkPath (some out) = .ok () := by simp [checkPath, hfault]
  rw [read, hscan]
  show (checkPath (some out) >>= fun _ => _) = _
  rw [hpath]
  show (if files.isDirectory out = true then _ else _) = _
  rw [FileTree.isDirectory_of_writable hout]
  rfl

end CommandName

/-! ## Lines -/

/-- A fetch by a name that files have gives the bytes of the newest of them. -/
theorem Command.fetch_newest {t : Template} {name : String} {d : Desk} (hs : d.store.Sound) {newest : StoredFile}
    (hnewest : ((d.store.bucket t.bucketName).named name).getLast? = some newest) :
    (∃ record, ((fetch Session.unheard t name).run d).1 = .ok (record, newest.content)) ∧
      ((fetch Session.unheard t name).run d).2.session = d.session := by
  have hanswer := t.resource_byName name hs
  rw [fetch_run (heard_unheard t d (.get name none)), hearing_unheard]
  generalize (t.resource name).run d.store = found at hanswer ⊢
  obtain ⟨answer, s⟩ := found
  cases hhead : ((d.store.bucket t.bucketName).named name).head? with
  | none =>
    rw [List.head?_eq_none_iff] at hhead
    simp [hhead] at hnewest
  | some f =>
    rw [hhead] at hanswer
    obtain rfl : answer = _ := hanswer
    have hread := Resource.read_newest hnewest f.record
    exact ⟨⟨f.record, congrArg (Except.map fun content => (f.record, content)) hread⟩, rfl⟩

namespace CommandLine

section

variable {d d' : Desk} {depot : Depot} (hopen : (Desk.openDepot none none).run d = (.ok depot, d'))
  {file name out : String} {content : Bytes} {place : Place}

include hopen

/-- A line that stores a file under a name adds it to the bucket of the depot. -/
theorem run_put (hfile : OptionWord.isOption file = false) (hread : d'.session.files.read file = .ok content)
    (hname : name ≠ "") :
    ∃ f s, f.filename = name ∧ f.content = content ∧ d'.store.Gains depot.template.bucketName f s ∧
      (run ["put", file, "--name", name]).run d =
        (.done (Command.line s!"Stored: {f.id.render}"), { d' with store := s }) := by
  let t := depot.template
  let f := d'.store.nextFile name content t.namedChunkSize (.document [])
  have hnamed : Template.storedName file (some name) = name := by simp [Template.storedName, hname]
  have hstore : (t.storeFileTelling Template.unheard d'.session.files file (some name) none []).run d'.store =
      (.ok f.id, (d'.store.asked t.bucketName).withFile t.bucketName f) := by
    rw [t.storeFile_run, hread, hnamed]
    show (((t.store (some content) (.text name) .null .null).run d'.store).1.map Upload.id, _) = _
    rw [t.store_run]
    rfl
  have hgains : (d'.store.asked t.bucketName).Gains t.bucketName f _ := Store.gains_withFile _ _ rfl
  refine ⟨f, _, rfl, rfl, hgains.of_asked, ?_⟩
  rw [show ["put", file, "--name", name] = CommandName.put.spelling :: [file, "--name", name] from rfl,
    run, run_name hopen (CommandName.read_put hfile hread), Command.perform_put_run (Command.heard_unheard _ _ _),
    Command.hearing_unheard, hstore]
  rfl

/-- A line that fetches a name to a file writes the bytes of the newest file of the name. -/
theorem run_get (hs : d'.store.Sound) (hname : OptionWord.isOption name = false)
    (hout : d'.session.files.writable out = .ok place) {newest : StoredFile}
    (hnewest : ((d'.store.bucket depot.template.bucketName).named name).getLast? = some newest) :
    let got := (run ["get", name, "-o", out]).run d
    (∃ printed, got.1 = .done printed) ∧ got.2.session.files.read out = .ok newest.content := by
  intro got
  have hgiven : (some out).filter (· ≠ "") = some out := by simp [FileTree.ne_empty_of_writable hout]
  obtain ⟨⟨record, hfetched⟩, hsession⟩ := Command.fetch_newest hs hnewest
  rcases hfetch : (Command.fetch Session.unheard depot.template name).run d' with ⟨answer, d₁⟩
  rw [hfetch] at hfetched hsession
  obtain rfl : answer = .ok (record, newest.content) := hfetched
  obtain ⟨files, hwrite⟩ : ∃ files, d₁.session.files.write out newest.content = .ok files := by
    rw [hsession, FileTree.write, hout]
    exact ⟨_, rfl⟩
  have hget : (Command.performTelling Session.unheard depot.template (.get name (some out))).run d' =
      (.ok (Command.line s!"Wrote {record.length} bytes to {out}"),
        { d₁ with session := d₁.session.withFiles files }) := by
    rw [Command.performTelling, Step.run_bind, hfetch]
    simp only [hgiven]
    rw [Step.run_then_pure, Desk.writeFile, Step.run_bind, Step.run_get]
    simp only
    rw [Step.run_bind, Step.run_liftM, hwrite]
    rfl
  have hgot : got = (.done (Command.line s!"Wrote {record.length} bytes to {out}"),
      { d₁ with session := d₁.session.withFiles files }) := by
    have hrun := run_name hopen (CommandName.read_get hname hout)
    rw [hget] at hrun
    exact hrun
  rw [hgot]
  exact ⟨⟨_, rfl⟩, FileTree.read_write hwrite⟩

/-- **A file that has just been stored is fetched as it is.** -/
theorem run_get_of_put (hs : d.store.Reachable) (hfile : OptionWord.isOption file = false)
    (hread : d'.session.files.read file = .ok content) (hname : name ≠ "") (hdash : name.toList.head? ≠ some '-')
    (hout : d'.session.files.writable out = .ok place) :
    let put := (run ["put", file, "--name", name]).run d
    let got := (run ["get", name, "-o", out]).run put.2
    (∃ printed, put.1 = .done printed) ∧ (∃ printed, got.1 = .done printed) ∧
      got.2.session.files.read out = .ok content := by
  intro put got
  obtain ⟨f, s, hfilename, rfl, hgains, hput⟩ := run_put hopen hfile hread hname
  have hputs : put = (.done _, { d' with store := s }) := hput
  have hopened : (Desk.openDepot none none).run put.2 = (.ok depot, put.2) := by
    have hkept : d'.depot = some depot := Desk.openDepot_depot hopen
    have hdepot : put.2.depot = some depot := by
      rw [hputs]
      exact hkept
    exact Desk.openDepotTelling_of_open _ hdepot none none
  have hsound : put.2.store.Sound := by
    have hstore : d'.store = d.store := store_of_open hopen
    rw [hputs]
    exact hgains.sound (hstore ▸ hs.sound)
  have hnewest : ((put.2.store.bucket depot.template.bucketName).named name).getLast? = some f := by
    rw [hputs]
    simp only
    rw [hgains.bucket, Bucket.named, Bucket.add, List.filter_append]
    simp [hfilename]
  have hplace : put.2.session.files.writable out = .ok place := by
    rw [hputs]
    exact hout
  exact ⟨⟨_, congrArg Prod.fst hputs⟩, run_get hopened hsound (OptionWord.not_isOption hdash) hplace hnewest⟩

end

end CommandLine

/-! ## Whole runs -/

namespace Desk

/-- **What has been written is read.** After every run of actions and command lines from the empty store, whatever
    answers for patterns that are not read, the files of a bucket are those whose receipts survive, in the order of the
    uploads. A name resolves to nothing exactly if no receipt of it survives, and otherwise to a resource that reads
    the bytes of the last of them. So where a file is then stored from a line under a name, the line that fetches this
    name writes the bytes of the file. -/
theorem read_your_writes {d : Desk} {engine : Engine} (hempty : d.store = { engine }) (steps : List Step)
    (t : Template) (name : String) :
    let d' := steps.foldl Step.after d
    let written := d'.store.named t.bucketName name (d.receipts steps)
    let answer := ((t.resource name).run d'.store).1
    (d'.store.bucket t.bucketName).files.map (·.receipt t.bucketName) =
      d'.store.surviving t.bucketName (d.receipts steps) ∧
    (answer = .ok none ↔ written = []) ∧
    (∀ r, written.getLast? = some r →
      ∃ found, answer = .ok (some found) ∧ (found.read .null).2 = .ok r.content) ∧
    ∀ depot opened file content out place, (openDepot none none).run d' = (.ok depot, opened) →
      OptionWord.isOption file = false → opened.session.files.read file = .ok content →
      name ≠ "" → name.toList.head? ≠ some '-' → opened.session.files.writable out = .ok place →
      let put := (CommandLine.run ["put", file, "--name", name]).run d'
      let got := (CommandLine.run ["get", name, "-o", out]).run put.2
      (∃ printed, put.1 = .done printed) ∧ (∃ printed, got.1 = .done printed) ∧
        got.2.session.files.read out = .ok content := by
  intro d' written answer
  have hstore : d'.store = (d.actions steps).foldl Store.Action.after { engine } := by
    rw [← hempty]
    exact d.run_store steps
  have hreached : d'.store.Reachable := by
    rw [hstore]
    exact (Store.Reachable.start engine).run _
  have haccounts : d'.store.Accounts (d.receipts steps) := by
    rw [hstore, receipts, hempty]
    exact Store.receipts_account engine _
  refine ⟨haccounts.files _, t.resource_eq_none_iff hreached.sound haccounts name, ?_, ?_⟩
  · intro r hr
    exact t.resource_reads_last hreached.sound haccounts name hr
  · intro depot opened file content out place hopen hfile hread hname hdash hout
    exact CommandLine.run_get_of_put hopen hreached hfile hread hname hdash hout

/-- A name is uploaded twice, the second time from a line, and another one is removed from a line; the name then
    reads as the file did, and so does the other one once the file has been stored under it. -/
theorem read_your_writes_lines :
    let depot : Depot := { connection := { client := {}, database := "db" }, template := {} }
    let d : Desk := { session := ({} : Session).withFiles { nodes := [(["a"], .file [1, 2])] }, depot := some depot }
    let steps : List Step := [.action (.upload "fs" (.text "x") [9] none .null),
      .action (.upload "fs" (.text "y") [8] none .null), .line ["put", "a", "--name", "x"], .line ["rm", "y"]]
    let d' := steps.foldl Step.after d
    (d.receipts steps).map (·.id.value) = [1, 2, 3] ∧
    (d'.store.bucket "fs").files.map (·.id.value) = [1, 3] ∧
    (∃ found, ((({} : Template).resource "x").run d'.store).1 = .ok (some found) ∧
      (found.read .null).2 = .ok [1, 2]) ∧
    ((({} : Template).resource "y").run d'.store).1 = .ok none ∧
    ((CommandLine.run ["get", "y", "-o", "b"]).run
      ((CommandLine.run ["put", "a", "--name", "y"]).run d').2).2.session.files.read "b" = .ok [1, 2] := by
  intro depot d steps d'
  let t : Template := {}
  have hd' : d' = steps.foldl Step.after d := rfl
  have hids : (d.receipts steps).map (·.id.value) = [1, 2, 3] := by decide +kernel
  have hfiles : (d'.store.bucket "fs").files.map (·.id.value) = [1, 3] := by decide +kernel
  have hx : (d'.store.named t.bucketName "x" (d.receipts steps)).getLast? =
      some { bucket := "fs", id := ⟨3⟩, filename := "x", content := [1, 2] } := by decide +kernel
  have hy : d'.store.named t.bucketName "y" (d.receipts steps) = [] := by decide +kernel
  have hread : d'.session.files.read "a" = .ok [1, 2] := by decide +kernel
  have hout : d'.session.files.writable "b" = .ok ["b"] := by decide +kernel
  have hopened : d'.depot.isSome := by decide +kernel
  obtain ⟨opened, hopened⟩ := Option.isSome_iff_exists.mp hopened
  have hempty : d.store = {} := rfl
  obtain ⟨-, -, hlast, -⟩ := read_your_writes hempty steps t "x"
  obtain ⟨-, hnone, -, hlines⟩ := read_your_writes hempty steps t "y"
  have hgot := hlines opened d' "a" [1, 2] "b" ["b"] (openDepotTelling_of_open _ hopened none none) (by decide +kernel)
    hread (by decide) (by decide +kernel) hout
  refine ⟨hids, hfiles, hlast _ hx, hnone.mpr hy, ?_⟩
  rw [hd']
  exact hgot.2.2

end Desk

end FileDepot
