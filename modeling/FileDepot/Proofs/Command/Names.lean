import FileDepot.Proofs.Command.Patterns
import FileDepot.Proofs.Glob.ExactNames
import FileDepot.Proofs.Store.Reading

/-!
# Commands on names

A pattern without a wildcard is the name of files. A removal by it takes out every file of the name, but it
resolves to one resource, that of the first of these files, and this one is all that a listing shows. So a
listing shows what a removal would delete only where the name has been given to at most one file.

A name can be looked up by its expression as well, as a pattern is. This finds the files of the name and, besides
them, those whose name is the name with a line feed behind it.

Contents:

* `Template.removalQuery_of_name` — a removal asks for all files of a name;
* `Template.resources_of_name`, `Template.delete_byName` — what a name resolves to, and what goes with it;
* `CommandLine.run_ls_name`, `CommandLine.run_rm_name` — what a listing and a removal by a name print and leave;
* `CommandLine.names_listed_removed` — the two next to each other;
* `Template.find_expression_of_name` — a name looked up by itself and by its expression.
-/

namespace FileDepot

/-- A text with content is not empty. -/
theorem Text.ne_empty_of_not_blank {text : String} (h : isBlankText text = false) : text ≠ "" := by
  rintro rfl
  cases h

namespace Bucket

/-- What a lookup of a name gives at most: the first file that has it. -/
def firstNamed (b : Bucket) (name : String) : List StoredFile :=
  (b.named name).head?.toList

/-- The first file is all there is of a name exactly if no other file has it. -/
theorem firstNamed_eq_named_iff (b : Bucket) (name : String) :
    (b.firstNamed name).map StoredFile.id = (b.named name).map StoredFile.id ↔
      (b.named name).length ≤ 1 := by
  unfold firstNamed
  rcases b.named name with _ | ⟨f, _ | ⟨g, later⟩⟩ <;> simp

end Bucket

namespace Template

/-- A removal asks for the files of a name by the name itself. -/
theorem removalQuery_of_name {p : String} (hname : (Glob.withSeparator p none).hasWildcard = false) :
    removalQuery p = .ok (byName p) := by
  simp only [removalQuery, hname]
  rfl

theorem removal_run_name {t : Template} {p : String}
    (hname : (Glob.withSeparator p none).hasWildcard = false) (s : Store) :
    (t.removal p).run s = (t.delete (some (byName p))).run s := by
  rw [removal, removalTelling, Step.run_bind, onStore_self, Step.run_liftM, removalQuery_of_name hname]
  rfl

/-- **A name resolves to its first file**, and to nothing if no file has it. -/
theorem resources_of_name (t : Template) {s : Store} (hs : s.Sound) {p : String}
    (hblank : Text.isBlankText p = false) (hname : (Glob.withSeparator p none).hasWildcard = false) :
    ((t.resources (some p)).run s).1.failure = none ∧
      ((t.resources (some p)).run s).1.resources.map Resource.file =
        ((s.bucket t.bucketName).firstNamed p).map StoredFile.record := by
  have hresource := t.resource_byName p hs
  rw [t.resources_run_name hblank hname]
  rcases hrun : (t.resource p).run s with ⟨answer, s'⟩
  rw [hrun] at hresource
  obtain rfl : answer = .ok _ := hresource
  refine ⟨rfl, ?_⟩
  unfold Bucket.firstNamed
  cases ((s.bucket t.bucketName).named p).head? <;> rfl

/-- **A deletion by a name removes every file that has it** and keeps the others in their order. -/
theorem delete_byName (t : Template) {s : Store} (hs : s.Reachable) (p : String) :
    let run := (t.delete (some (byName p))).run s
    run.1 = .ok ((s.bucket t.bucketName).named p).length ∧
      (run.2.bucket t.bucketName).files =
        (s.bucket t.bucketName).files.filter (fun f => !(f.filename == p)) ∧
      ∀ other, other ≠ t.bucketName → run.2.bucket other = s.bucket other := by
  obtain ⟨hcount, hloses⟩ := delete_of_found hs (t.find_byName p s)
  refine ⟨hcount, ?_, hloses.others⟩
  rw [hloses.bucket]
  exact (hs.sound t.bucketName).distinct.files_without_filter _

end Template

namespace CommandLine

section

variable {hears : LogMessage → SessionM Unit} {d d' : Desk} {depot : Depot} {p : String}
  (hs : d.store.Reachable) (hopen : (Desk.openDepotTelling hears none none).run d = (.ok depot, d'))
  (hname : (Glob.withSeparator p none).hasWildcard = false) (hdash : p.toList.head? ≠ some '-')

include hs hopen hname hdash

/-- A listing by a name prints a line for the first file that has it. -/
theorem run_ls_name (hblank : Text.isBlankText p = false)
    (hheard : (Command.list (some p)).Heard hears depot.template d') :
    ((runTelling hears ["ls", p]).run d).1 =
      .done (((d.store.bucket depot.template.bucketName).firstNamed p).flatMap fun f =>
        s!"{f.id.render}\t{f.content.length}\t{f.filename}\n".toUTF8.data.toList) := by
  obtain ⟨hfailure, hfiles⟩ := depot.template.resources_of_name hs.sound hblank hname
  rw [run_list_word hopen hdash (Text.ne_empty_of_not_blank hblank) hheard hfailure hfiles]
  simp only [List.flatMap_map, Command.listed_record]

/-- A removal by a name takes out every file that has it, prints how many these are, and leaves the others in
their order. -/
theorem run_rm_name (hheard : (Command.remove p).Heard hears depot.template d') :
    let name := depot.template.bucketName
    let ran := (runTelling hears ["rm", p]).run d
    ran.1 = .done s!"Deleted {((d.store.bucket name).named p).length} file(s)\n".toUTF8.data.toList ∧
      (ran.2.store.bucket name).files =
        (d.store.bucket name).files.filter (fun f => !(f.filename == p)) ∧
      ∀ other, other ≠ name → ran.2.store.bucket other = d.store.bucket other := by
  intro name ran
  obtain ⟨hcount, hfiles, hothers⟩ := depot.template.delete_byName hs p
  rw [← Template.removal_run_name hname] at hcount hfiles hothers
  obtain ⟨hprinted, hstore⟩ := run_remove_word hopen hdash hheard hcount
  refine ⟨by rw [hprinted, Command.deleted_line], ?_, ?_⟩
  · rw [hstore]
    exact hfiles
  · rw [hstore]
    exact hothers

end

/-- **A listing by a name shows the first of the files that a removal deletes.** It prints one line, with the
identifier, the length and the name of this file. A removal deletes all files of the name and prints how many they
are, so the listing shows the same files exactly if at most one file has it. This is so for whoever listens, as long
as nothing that the command tells is refused. -/
theorem names_listed_removed {s : Store} (hs : s.Reachable) (t : Template) {p : String}
    (hblank : Text.isBlankText p = false) (hname : (Glob.withSeparator p none).hasWildcard = false) :
    let files := (s.bucket t.bucketName).files
    let gone := files.filter fun f => f.filename == p
    let shown := gone.head?.toList
    (∀ (hears : LogMessage → SessionM Unit) (d d' : Desk) (depot : Depot), d.store = s →
      (Desk.openDepotTelling hears none none).run d = (.ok depot, d') → depot.template = t →
      p.toList.head? ≠ some '-' →
        ((Command.list (some p)).Heard hears t d' →
          ((runTelling hears ["ls", p]).run d).1 =
            .done (shown.flatMap fun f =>
              s!"{f.id.render}\t{f.content.length}\t{f.filename}\n".toUTF8.data.toList)) ∧
        ((Command.remove p).Heard hears t d' →
          ((runTelling hears ["rm", p]).run d).1 =
            .done s!"Deleted {gone.length} file(s)\n".toUTF8.data.toList ∧
          (((runTelling hears ["rm", p]).run d).2.store.bucket t.bucketName).files =
            files.filter (fun f => !(f.filename == p)) ∧
          ∀ other, other ≠ t.bucketName →
            ((runTelling hears ["rm", p]).run d).2.store.bucket other = s.bucket other)) ∧
      (shown.map StoredFile.id = gone.map StoredFile.id ↔ gone.length ≤ 1) := by
  intro files gone shown
  refine ⟨?_, Bucket.firstNamed_eq_named_iff _ p⟩
  rintro hears d d' depot rfl hopen rfl hdash
  exact ⟨run_ls_name hs hopen hname hdash hblank, run_rm_name hs hopen hname hdash⟩

/-- Of three uploads two have one name: a listing by this name shows the first of them, and a removal deletes
both. -/
theorem names_listed_removed_twice :
    let uploads : List Store.Action := [.upload "fs" (.text "a") [1] none .null,
      .upload "fs" (.text "b") [2] none .null, .upload "fs" (.text "a") [3, 4] none .null]
    let depot : Depot := { connection := { client := {}, database := "db" }, template := {} }
    let d : Desk := { store := uploads.foldl Store.Action.after {}, depot := some depot }
    ∃ shown gone : List StoredFile, shown.map (·.id.value) = [1] ∧ gone.map (·.id.value) = [1, 3] ∧
      ((run ["ls", "a"]).run d).1 = .done "000000000000000000000001\t1\ta\n".toUTF8.data.toList ∧
      ((run ["rm", "a"]).run d).1 = .done "Deleted 2 file(s)\n".toUTF8.data.toList ∧
      (((run ["rm", "a"]).run d).2.store.bucket "fs").files.map (·.id.value) = [2] ∧
      shown.map StoredFile.id ≠ gone.map StoredFile.id := by
  intro uploads depot d
  have hs : d.store.Reachable := Store.Reachable.empty.run uploads
  have hgone : (((d.store.bucket "fs").files.filter fun f => f.filename == "a").map (·.id.value)) =
      [1, 3] := by decide +kernel
  have hshown : (((d.store.bucket "fs").files.filter fun f => f.filename == "a").head?.toList.map
      (·.id.value)) = [1] := by decide +kernel
  have hkept : (((d.store.bucket "fs").files.filter fun f => !(f.filename == "a")).map (·.id.value)) =
      [2] := by decide +kernel
  obtain ⟨hcommands, hsame⟩ :=
    names_listed_removed hs {} (p := "a") (by decide +kernel) (by decide +kernel)
  have hopen : (Desk.openDepotTelling Session.unheard none none).run d = (.ok depot, d) :=
    Desk.openDepotTelling_of_open _ rfl none none
  obtain ⟨hls, hrm⟩ := hcommands Session.unheard d d depot rfl hopen rfl (by decide +kernel)
  obtain ⟨hprinted, hleft, -⟩ := hrm (Command.heard_unheard _ _ _)
  refine ⟨_, _, hshown, hgone, ?_, ?_, ?_, ?_⟩
  · exact (hls (Command.heard_unheard _ _ _)).trans (by decide +kernel)
  · exact hprinted.trans (by decide +kernel)
  · rw [show ({} : Template).bucketName = "fs" from rfl] at hleft
    rw [run, hleft]
    exact hkept
  · intro hids
    have htwo := congrArg List.length hgone
    rw [List.length_map] at htwo
    have hone := hsame.mp hids
    rw [show ({} : Template).bucketName = "fs" from rfl, htwo] at hone
    exact absurd hone (by decide)

end CommandLine

/-! ## Names looked up by their expressions -/

/-- The expression of a name can be read. -/
theorem Glob.read_of_name {p : String} (hname : (Glob.withSeparator p none).hasWildcard = false) :
    ∃ r, Regex.read (Glob.withSeparator p none).expressionChars = .ok r := by
  obtain ⟨r, hread, -⟩ := map_eq_ok.mp (Glob.matches_of_name hname p)
  exact ⟨r, hread⟩

/-- The files that a name accepts as a pattern. -/
theorem Glob.accepted_of_name {p : String} (hname : (Glob.withSeparator p none).hasWildcard = false)
    (files : List StoredFile) :
    (Glob.withSeparator p none).accepted files =
      files.filter fun f => f.filename == p || f.filename == p ++ "\n" := by
  have haccepts (name : String) :
      (Glob.withSeparator p none).accepts name = (name == p || name == p ++ "\n") := by
    rw [Glob.accepts, Glob.matches_of_name hname]
    rfl
  simp only [Glob.accepted, haccepts]

namespace Template

/-- **The expression of a name finds more than the name does.** A removal asks for the name itself, which finds
the files that have it. Its expression finds those with a line feed behind the name as well, so that the two find
the same files exactly if there are none such. -/
theorem find_expression_of_name (t : Template) (s : Store) {p : String}
    (hname : (Glob.withSeparator p none).hasWildcard = false) :
    let query (c : Except Failure Criterion) := c >>= fun c => Query.ofParts [.criterion c]
    let named := query ((Criterion.Call.equalTo (.text p)).made Criterion.onFilename)
    let matched :=
      query ((Criterion.Call.matching (.text (Glob.withSeparator p none).expression) (.text "")).made
        Criterion.onFilename)
    let files := (s.bucket t.bucketName).files
    let found (q : Except Failure Query) := q >>= fun q => ((t.find (some q)).run s).1.map (·.files)
    removalQuery p = named ∧
      found named = .ok (files.filter fun f => f.filename == p) ∧
      found matched = .ok (files.filter fun f => f.filename == p || f.filename == p ++ "\n") ∧
      (found matched = found named ↔ ∀ f ∈ files, f.filename ≠ p ++ "\n") := by
  intro query named matched files found
  obtain ⟨r, hread⟩ := Glob.read_of_name hname
  have hnamed : found named = .ok (files.filter fun f => f.filename == p) := by
    show ((t.find (some (byName p))).run s).1.map _ = _
    rw [find_byName]
    rfl
  have hmatched :
      found matched = .ok (files.filter fun f => f.filename == p || f.filename == p ++ "\n") := by
    show ((t.find (some (byExpression (Glob.withSeparator p none).expression))).run s).1.map _ = _
    rw [find_byExpression hread, ← Glob.accepted_of_name hname]
    rfl
  refine ⟨removalQuery_of_name hname, hnamed, hmatched, ?_⟩
  rw [hnamed, hmatched, Except.ok.injEq]
  constructor
  · intro heq f hf hended
    -- such a file is found by the expression, and its name is longer than the one asked for
    have hfound : f ∈ files.filter fun f => f.filename == p := by
      rw [← heq]
      exact List.mem_filter.mpr ⟨hf, by simp [hended]⟩
    have hequal : p ++ "\n" = p := by simpa [hended] using (List.mem_filter.mp hfound).2
    have hlength := congrArg String.length hequal
    rw [String.length_append] at hlength
    exact absurd hlength (by simp)
  · intro hnone
    refine List.filter_congr fun f hf => ?_
    simp [hnone f hf]

/-- Of two files whose names differ in a last line feed the name finds one, and its expression both. -/
theorem find_expression_of_ended_name :
    let uploads : List Store.Action := [.upload "fs" (.text "docs/a.txt") [1] none .null,
      .upload "fs" (.text "docs/a.txt\n") [2] none .null]
    let s := uploads.foldl Store.Action.after {}
    let found (c : Except Failure Criterion) : Except Failure (List StoredFile) :=
      (c >>= fun c => Query.ofParts [.criterion c]) >>= fun q =>
        ((({} : Template).find (some q)).run s).1.map (·.files)
    let expression := (Glob.withSeparator "docs/a.txt" none).expression
    (found ((Criterion.Call.equalTo (.text "docs/a.txt")).made Criterion.onFilename)).map
        (·.map (·.id.value)) = .ok [1] ∧
      (found ((Criterion.Call.matching (.text expression) (.text "")).made Criterion.onFilename)).map
        (·.map (·.id.value)) = .ok [1, 2] := by
  intro uploads s found expression
  obtain ⟨-, hnamed, hmatched, -⟩ :=
    find_expression_of_name {} s (p := "docs/a.txt") (by decide +kernel)
  constructor
  · rw [show found _ = _ from hnamed]
    decide +kernel
  · rw [show found _ = _ from hmatched]
    decide +kernel

end Template

end FileDepot
