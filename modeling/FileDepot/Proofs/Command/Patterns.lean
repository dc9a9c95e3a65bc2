import FileDepot.Proofs.Command.Steps
import FileDepot.Proofs.Store.Patterns

/-!
# Commands on patterns

A pattern with a wildcard can be resolved, listed and removed, and each of these asks the store in a way of
its own. All of them concern the files whose names the pattern matches by itself, in the order of upload.

Contents:

* `Template.removalQuery_of_hasWildcard` — a removal asks as a resolution does;
* `CommandLine.run_ls`, `CommandLine.run_rm` — what a listing and a removal print and leave;
* `CommandLine.patterns_agree` — resolution, listing and removal by one pattern.
-/

namespace FileDepot

/-- A removal asks for the files of a pattern as a resolution does. -/
theorem Template.removalQuery_of_hasWildcard {pattern : String}
    (h : (Glob.withSeparator pattern none).hasWildcard = true) :
    removalQuery pattern = .ok (byExpression (Glob.withSeparator pattern none).expression) := by
  simp only [removalQuery, h]
  rfl

theorem Template.removal_run {t : Template} {pattern : String}
    (h : (Glob.withSeparator pattern none).hasWildcard = true) (s : Store) :
    (t.removal pattern).run s =
      (t.delete (some (byExpression (Glob.withSeparator pattern none).expression))).run s := by
  rw [removal, removalTelling, Step.run_bind, onStore_self, Step.run_liftM, removalQuery_of_hasWildcard h]
  rfl

namespace CommandLine

section

variable {hears : LogMessage → SessionM Unit} {d d' : Desk} {depot : Depot} {p : String} {r : Regex}
  (hs : d.store.Reachable) (hopen : (Desk.openDepotTelling hears none none).run d = (.ok depot, d'))
  (hwild : (Glob.withSeparator p none).hasWildcard = true)
  (hread : Regex.read (Glob.withSeparator p none).expressionChars = .ok r)
  (hdash : p.toList.head? ≠ some '-')

include hs hopen hwild hread hdash

/-- A listing prints a line for each file whose name the pattern matches, in their order. -/
theorem run_ls (hheard : (Command.list (some p)).Heard hears depot.template d') :
    ((runTelling hears ["ls", p]).run d).1 =
      .done (((Glob.withSeparator p none).accepted (d.store.bucket depot.template.bucketName).files).flatMap
        fun f => s!"{f.id.render}\t{f.content.length}\t{f.filename}\n".toUTF8.data.toList) := by
  obtain ⟨hfailure, hfiles⟩ := Template.resources_of_pattern hread (t := depot.template) hs.sound hwild
  rw [run_list_word hopen hdash (Glob.ne_empty_of_hasWildcard hwild) hheard hfailure hfiles]
  simp only [List.flatMap_map, Command.listed_record]

/-- A removal takes out the files whose names the pattern matches, prints how many these are, and leaves the
    others in their order. -/
theorem run_rm (hheard : (Command.remove p).Heard hears depot.template d') :
    let g := Glob.withSeparator p none
    let name := depot.template.bucketName
    let ran := (runTelling hears ["rm", p]).run d
    ran.1 =
        .done s!"Deleted {(g.accepted (d.store.bucket name).files).length} file(s)\n".toUTF8.data.toList ∧
      (ran.2.store.bucket name).files =
        (d.store.bucket name).files.filter (fun f => !g.accepts f.filename) ∧
      ∀ other, other ≠ name → ran.2.store.bucket other = d.store.bucket other := by
  intro g name ran
  obtain ⟨hcount, hfiles, hothers⟩ := Template.delete_byExpression hread (t := depot.template) hs
  rw [← Template.removal_run hwild] at hcount hfiles hothers
  obtain ⟨hprinted, hstore⟩ := run_remove_word hopen hdash hheard hcount
  refine ⟨by rw [hprinted, Command.deleted_line], ?_, ?_⟩
  · rw [hstore]
    exact hfiles
  · rw [hstore]
    exact hothers

end

/-- **Resolution, listing and removal agree on a pattern.** For a pattern with a wildcard whose expression can
    be read, all of them concern exactly the files whose names the pattern matches, in the order of upload: a
    listing prints a line for each of them, with its identifier, its length and its name, and a removal prints how
    many they are. This is so for whoever listens, as long as nothing that the command tells is refused. -/
theorem patterns_agree {s : Store} (hs : s.Reachable) (t : Template) {p : String} {r : Regex}
    (hwild : (Glob.withSeparator p none).hasWildcard = true)
    (hread : Regex.read (Glob.withSeparator p none).expressionChars = .ok r) :
    let g := Glob.withSeparator p none
    let files := (s.bucket t.bucketName).files
    let found := ((t.resources (some p)).run s).1
    (found.failure = none ∧
        found.resources.map Resource.file = (g.accepted files).map StoredFile.record) ∧
      ∀ (hears : LogMessage → SessionM Unit) (d d' : Desk) (depot : Depot), d.store = s →
        (Desk.openDepotTelling hears none none).run d = (.ok depot, d') → depot.template = t →
        p.toList.head? ≠ some '-' →
          ((Command.list (some p)).Heard hears t d' →
            ((runTelling hears ["ls", p]).run d).1 =
              .done ((g.accepted files).flatMap fun f =>
                s!"{f.id.render}\t{f.content.length}\t{f.filename}\n".toUTF8.data.toList)) ∧
          ((Command.remove p).Heard hears t d' →
            ((runTelling hears ["rm", p]).run d).1 =
              .done s!"Deleted {(g.accepted files).length} file(s)\n".toUTF8.data.toList ∧
            (((runTelling hears ["rm", p]).run d).2.store.bucket t.bucketName).files =
              files.filter (fun f => !g.accepts f.filename) ∧
            ∀ other, other ≠ t.bucketName →
              ((runTelling hears ["rm", p]).run d).2.store.bucket other = s.bucket other) := by
  intro g files found
  refine ⟨Template.resources_of_pattern hread hs.sound hwild, ?_⟩
  rintro hears d d' depot rfl hopen rfl hdash
  exact ⟨run_ls hs hopen hwild hread hdash, run_rm hs hopen hwild hread hdash⟩

/-- Of three uploads two have a name with the ending `.txt`; these two are resolved, listed and removed. -/
theorem patterns_agree_ending :
    let uploads : List Store.Action := [.upload "fs" (.text "a.txt") [1] none .null,
      .upload "fs" (.text "b.md") [2] none .null, .upload "fs" (.text "c.txt") [3, 4] none .null]
    let depot : Depot := { connection := { client := {}, database := "db" }, template := {} }
    let d : Desk := { store := uploads.foldl Store.Action.after {}, depot := some depot }
    ∃ found kept : List StoredFile, found.map (·.id.value) = [1, 3] ∧ kept.map (·.id.value) = [2] ∧
      ((({} : Template).resources (some "*.txt")).run d.store).1.resources.map Resource.file =
        found.map StoredFile.record ∧
      ((run ["ls", "*.txt"]).run d).1 =
        .done "000000000000000000000001\t1\ta.txt\n000000000000000000000003\t2\tc.txt\n".toUTF8.data.toList ∧
      ((run ["rm", "*.txt"]).run d).1 = .done "Deleted 2 file(s)\n".toUTF8.data.toList ∧
      (((run ["rm", "*.txt"]).run d).2.store.bucket "fs").files = kept := by
  intro uploads depot d
  have hwild : (Glob.withSeparator "*.txt" none).hasWildcard = true := by decide +kernel
  have hfound : ((Glob.withSeparator "*.txt" none).accepted (d.store.bucket "fs").files).map (·.id.value) =
      [1, 3] := by decide +kernel
  have hkept : ((d.store.bucket "fs").files.filter fun f =>
      !(Glob.withSeparator "*.txt" none).accepts f.filename).map (·.id.value) = [2] := by decide +kernel
  have hlength : ((Glob.withSeparator "*.txt" none).accepted (d.store.bucket "fs").files).length = 2 := by
    simpa using congrArg List.length hfound
  cases hread : Regex.read (Glob.withSeparator "*.txt" none).expressionChars with
  | error e =>
    have hsome : (Regex.read (Glob.withSeparator "*.txt" none).expressionChars).toOption.isSome = true := by
      decide +kernel
    rw [hread] at hsome
    cases hsome
  | ok r =>
    have hs : d.store.Reachable := Store.Reachable.empty.run uploads
    obtain ⟨⟨-, hresources⟩, hcommands⟩ := patterns_agree hs {} hwild hread
    have hopen : (Desk.openDepotTelling Session.unheard none none).run d = (.ok depot, d) :=
      Desk.openDepotTelling_of_open _ rfl none none
    obtain ⟨hls, hrm⟩ := hcommands Session.unheard d d depot rfl hopen rfl (by decide +kernel)
    obtain ⟨hprinted, hleft, -⟩ := hrm (Command.heard_unheard _ _ _)
    rw [show ({} : Template).bucketName = "fs" from rfl] at hprinted hleft
    rw [hlength] at hprinted
    refine ⟨_, _, hfound, hkept, hresources, ?_, ?_, ?_⟩
    · exact (hls (Command.heard_unheard _ _ _)).trans (by decide +kernel)
    · exact hprinted
    · rw [run]
      exact hleft

end CommandLine

end FileDepot
