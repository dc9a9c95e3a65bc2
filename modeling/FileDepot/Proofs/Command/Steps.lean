import FileDepot.Proofs.Command.Telling

/-!
# What commands do at a desk

Steps at a desk and the run of a line, as the answer that they give and the desk that they leave. Commands are taken
where nothing that they tell is refused, which is so in particular where nobody listens.

Contents:

* `Desk.leave_run`, `Desk.openDepotTelling_run`, `Desk.openDepotTelling_store` — the steps at a desk;
* `Command.line_eq`, `Command.listed_record` — the lines that are printed;
* `Command.perform_put_run`, `Command.fetch_run`, `Command.perform_list_run`, `Command.perform_remove_run` — the
  commands;
* `CommandLine.run_run` — a line that is read, opened for and carried out;
* `OptionWord.not_isOption` — a word that does not start with a dash is no option;
* `CommandLine.run_name` — a line that starts with the name of a command;
* `CommandLine.run_list_word`, `CommandLine.run_remove_word` — a listing and a removal by a word.
-/

namespace FileDepot

/-! ## Steps -/

namespace Desk

@[simp] theorem leave_run (rs : List Resource) (d : Desk) :
    (leave rs).run d = (.ok (), { d with resources := d.resources ++ rs }) :=
  rfl

/-- The depot of the desk, or one that is opened and kept. -/
theorem openDepotTelling_run (hears : LogMessage → SessionM Unit) (config bucket : Option String) (d : Desk) :
    (openDepotTelling hears config bucket).run d =
      match d.depot with
      | some depot => (.ok depot, d)
      | none =>
        let opened := (Session.openTelling hears config bucket).run d.session
        let d' := { d with session := opened.2 }
        match opened.1 with
        | .ok depot => (.ok depot, { d' with depot := some depot })
        | .error f => (.error f, d') := by
  obtain ⟨session, store, depot, resources⟩ := d
  rw [openDepotTelling, Step.run_bind, Step.run_get]
  cases depot with
  | some depot => rfl
  | none =>
    simp only
    rw [Step.run_bind, onSession_run]
    cases ((Session.openTelling hears config bucket).run session).1 <;> rfl

/-- A depot that is open is not opened again. -/
theorem openDepotTelling_of_open (hears : LogMessage → SessionM Unit) {d : Desk} {depot : Depot}
    (h : d.depot = some depot) (config bucket : Option String) :
    (openDepotTelling hears config bucket).run d = (.ok depot, d) := by
  rw [openDepotTelling_run, h]

/-- Opening the depot leaves the store as it is. -/
theorem openDepotTelling_store (hears : LogMessage → SessionM Unit) (config bucket : Option String) (d : Desk) :
    ((openDepotTelling hears config bucket).run d).2.store = d.store := by
  rw [openDepotTelling_run]
  split
  · rfl
  · simp only
    split <;> rfl

end Desk

/-! ## Commands -/

namespace Command

/-- What is printed on a line are the bytes of its text with a line feed behind it. -/
theorem line_eq (s : String) : line s = (s ++ "\n").toUTF8.data.toList :=
  rfl

/-- A file is listed on a line of its own: its identifier, its length and its name, with a tab between two of
them. -/
theorem listed_record (f : StoredFile) :
    listed f.record = s!"{f.id.render}\t{f.content.length}\t{f.filename}\n".toUTF8.data.toList := by
  have hline : s!"{f.id.render}\t{f.content.length}\t{f.filename}" ++ "\n" =
      s!"{f.id.render}\t{f.content.length}\t{f.filename}\n" := by
    simp only [toString, String.append_assoc]
  rw [← hline, ← line_eq]
  rfl

/-- How many files are gone is told on a line. -/
theorem deleted_line (n : Nat) :
    line s!"Deleted {n} file(s)" = s!"Deleted {n} file(s)\n".toUTF8.data.toList := by
  have hline : s!"Deleted {n} file(s)" ++ "\n" = s!"Deleted {n} file(s)\n" := by
    simp only [toString, String.append_assoc]
    rfl
  rw [← hline, line_eq]

section

variable {hears : LogMessage → SessionM Unit} {t : Template} {d : Desk}

/-- An upload of a file prints the identifier that it has got. -/
theorem perform_put_run {file : String} {name contentType : Option String} {entries : List String}
    (hheard : (put file name contentType entries).Heard hears t d) :
    (performTelling hears t (.put file name contentType entries)).run d =
      let stored := (t.storeFileTelling Template.unheard d.session.files file name contentType entries).run d.store
      (stored.1.map fun i => line s!"Stored: {i.render}",
        { d with session := ((put file name contentType entries).hearing hears t d).2, store := stored.2 }) := by
  have hfiles : Desk.files.run d = (.ok d.session.files, d) := rfl
  rw [performTelling, Step.run_bind, hfiles]
  simp only
  rw [Step.run_then_pure, (t.tells_storeFile hears _ _ _ _ _).run_heard (heard_iff.mp hheard)]

/-- A file is fetched by its name, and its resource is left closed. -/
theorem fetch_run {name : String} {output : Option String} (hheard : (get name output).Heard hears t d) :
    (fetch hears t name).run d =
      let found := (t.resource name).run d.store
      let d' := { d with session := ((get name output).hearing hears t d).2, store := found.2 }
      match found.1 with
      | .error e => (.error e, d')
      | .ok none => (.error (.notFound s!"No file named '{name}'"), d')
      | .ok (some r) =>
        ((r.read (.int (-1))).2.map fun content => (r.file, content),
          { d' with resources := d'.resources ++ [(r.read (.int (-1))).1.close] }) := by
  rw [fetch, Step.run_bind, (t.tells_resource hears name).run_heard (heard_iff.mp hheard)]
  rcases (t.resource name).run d.store with ⟨answer, s⟩
  cases answer with
  | error e => rfl
  | ok found =>
    cases found with
    | none => rfl
    | some r =>
      simp only [Resource.readAndClose]
      rw [Step.run_bind, Desk.leave_run]
      simp only
      rw [Step.run_bind, Step.run_liftM]
      cases (r.read (.int (-1))).2 <;> rfl

/-- A listing of all files shows their records in the order of their names. -/
theorem perform_list_all_run {pattern : Option String} (hnone : pattern.filter (· ≠ "") = none)
    (hheard : (list pattern).Heard hears t d) :
    (performTelling hears t (.list pattern)).run d =
      let found := (t.allByNameTelling Template.unheard).run d.store
      (found.1.map (·.flatMap listed),
        { d with session := ((list pattern).hearing hears t d).2, store := found.2 }) := by
  have hall : (Session.hearAll hears (FileDepot.messages (t.allByNameTelling note).run d.store)).run d.session =
      (.ok (), ((list pattern).hearing hears t d).2) := by
    have hall := heard_iff.mp hheard
    simp only [hearing, messages, hnone] at hall ⊢
    exact hall
  rw [performTelling, Step.run_then_pure, listing, hnone]
  simp only
  rw [(t.tells_allByName hears).run_heard hall]

/-- A listing by a pattern shows the records of the resources that it resolves to. -/
theorem perform_list_run {pattern : String} (h : pattern ≠ "") (hheard : (list (some pattern)).Heard hears t d) :
    (performTelling hears t (.list (some pattern))).run d =
      let found := (t.resources (some pattern)).run d.store
      (match found.1.failure with
        | some f => .error f
        | none => .ok ((found.1.resources.map (·.file)).flatMap listed),
        { d with
          session := ((list (some pattern)).hearing hears t d).2
          store := found.2
          resources := d.resources ++ found.1.resources.map Resource.close }) := by
  have hgiven : (some pattern).filter (· ≠ "") = some pattern := by simp [h]
  have hall : (Session.hearAll hears
      (FileDepot.messages (t.resourcesTelling (n := NotingM) note (some pattern)) d.store)).run d.session =
      (.ok (), ((list (some pattern)).hearing hears t d).2) := by
    have hall := heard_iff.mp hheard
    simp only [hearing, messages, hgiven] at hall ⊢
    exact hall
  rw [performTelling, Step.run_then_pure, listing, hgiven]
  simp only
  rw [Step.run_bind, Step.run_lift, (t.tells_resources hears (some pattern)).heard d _ hall]
  simp only
  rw [Step.run_bind, Desk.leave_run]
  simp only
  cases ((t.resources (some pattern)).run d.store).1.failure <;> rfl

/-- A removal deletes by the query for its pattern and prints how many files that were. -/
theorem perform_remove_run {pattern : String} (hheard : (remove pattern).Heard hears t d) :
    (performTelling hears t (.remove pattern)).run d =
      (((t.removal pattern).run d.store).1.map fun count => line s!"Deleted {count} file(s)",
        { d with
          session := ((remove pattern).hearing hears t d).2
          store := ((t.removal pattern).run d.store).2 }) := by
  rw [performTelling, Step.run_then_pure, (t.tells_removal hears _).run_heard (heard_iff.mp hheard)]

end

end Command

/-! ## Lines -/

/-- A word that does not start with a dash is no option. -/
theorem OptionWord.not_isOption {word : String} (h : word.toList.head? ≠ some '-') :
    isOption word = false := by
  rw [isOption]
  split
  · simp_all
  · rfl

/-- A word that is no option is all that a command is given. -/
theorem CommandName.read_word (n : CommandName) (files : FileTree) {word : String}
    (h : OptionWord.isOption word = false) :
    n.read files [word] = ofArguments files { words := [word] } n := by
  have hscan : Arguments.scan n.options true [word] = .ok { words := [word] } := by
    refine Arguments.scan_words _ _ _ ?_
    simpa using h
  rw [read, hscan]
  rfl

namespace CommandLine

/-- A line is read up to the name of its command, the depot is opened, and the rest is read and carried
    out. -/
theorem run_run (hears : LogMessage → SessionM Unit) (line : List String) (d : Desk) :
    (runTelling hears line).run d =
      match CommandLine.read d.session.files line with
      | .error u => (.ofUsage u, d)
      | .ok l =>
        match (Desk.openDepotTelling hears l.config l.bucket).run d with
        | (.error f, d) => (.escaped f, d)
        | (.ok depot, d) =>
          match l.command.read d.session.files l.rest with
          | .error u => (.ofUsage u, d)
          | .ok command =>
            (.ofAnswer command ((command.performTelling hears depot.template).run d).1,
              ((command.performTelling hears depot.template).run d).2) := by
  have hget (d : Desk) : (get : StateM Desk Desk).run d = (d, d) := rfl
  rw [runTelling, Step.run_then, hget]
  simp only
  cases CommandLine.read d.session.files line with
  | error u => rfl
  | ok l =>
    simp only
    rw [Step.run_then]
    simp only [StateT.run]
    rcases (Desk.openDepotTelling hears l.config l.bucket).run d with ⟨answer, d'⟩
    cases answer with
    | error f => rfl
    | ok depot =>
      simp only
      show StateT.run (get >>= _) d' = _
      rw [Step.run_then, hget]
      simp only
      cases l.command.read d'.session.files l.rest <;> rfl

/-- A line that starts with the name of a command has no options in front of it, whatever follows. -/
theorem read_name (files : FileTree) (n : CommandName) (rest : List String) :
    CommandLine.read files (n.spelling :: rest) =
      .ok { config := none, bucket := none, command := n, rest := rest } := by
  have hname : OptionWord.isOption n.spelling = false := by cases n <;> decide +kernel
  have hdashes : n.spelling ≠ "--" := Arguments.not_isOption_dashes hname
  have hcommand : commandOf n.spelling rest = .ok n := by
    have htext : CommandName.ofText? n.spelling = some n := by cases n <;> decide +kernel
    rw [commandOf, htext]
  have hscan : Arguments.scan options false (n.spelling :: rest) = .ok { words := n.spelling :: rest } := by
    simp [Arguments.scan, hname, hdashes]
  rw [CommandLine.read, hscan]
  show (commandOf n.spelling rest).map _ = _
  rw [hcommand]
  rfl

section

variable {hears : LogMessage → SessionM Unit} {d d' : Desk} {depot : Depot}
  (hopen : (Desk.openDepotTelling hears none none).run d = (.ok depot, d'))

include hopen

/-- A line that starts with the name of a command is carried out once the depot is open and the rest has been
    read. -/
theorem run_name {n : CommandName} {rest : List String} {command : Command}
    (hcommand : n.read d'.session.files rest = .ok command) :
    (runTelling hears (n.spelling :: rest)).run d =
      (.ofAnswer command ((command.performTelling hears depot.template).run d').1,
        ((command.performTelling hears depot.template).run d').2) := by
  rw [run_run, read_name]
  simp only [hopen, hcommand]

/-- Opening the depot has left the store as it was. -/
theorem store_of_open : d'.store = d.store := by
  have hstore := Desk.openDepotTelling_store hears none none d
  rwa [hopen] at hstore

variable {p : String} (hdash : p.toList.head? ≠ some '-')

include hdash

/-- A listing by a word prints the records of the resources to which the word resolves. -/
theorem run_list_word {records : List FileRecord} (hp : p ≠ "")
    (hheard : (Command.list (some p)).Heard hears depot.template d')
    (hfailure : ((depot.template.resources (some p)).run d.store).1.failure = none)
    (hrecords : ((depot.template.resources (some p)).run d.store).1.resources.map Resource.file = records) :
    ((runTelling hears ["ls", p]).run d).1 = .done (records.flatMap Command.listed) := by
  have hcommand : CommandName.list.read d'.session.files [p] = .ok (.list (some p)) := by
    rw [CommandName.read_word _ _ (OptionWord.not_isOption hdash)]
    rfl
  have hperform := Command.perform_list_run hp hheard
  rw [store_of_open hopen] at hperform
  simp only [hfailure, hrecords] at hperform
  rw [show ["ls", p] = [CommandName.list.spelling, p] from rfl, run_name hopen hcommand, hperform]
  rfl

/-- A removal by a word prints how many files are gone, and leaves the store that its deletion leaves. -/
theorem run_remove_word {count : Nat} (hheard : (Command.remove p).Heard hears depot.template d')
    (hcount : ((depot.template.removal p).run d.store).1 = .ok count) :
    ((runTelling hears ["rm", p]).run d).1 = .done (Command.line s!"Deleted {count} file(s)") ∧
      ((runTelling hears ["rm", p]).run d).2.store = ((depot.template.removal p).run d.store).2 := by
  have hcommand : CommandName.remove.read d'.session.files [p] = .ok (.remove p) := by
    rw [CommandName.read_word _ _ (OptionWord.not_isOption hdash)]
    rfl
  have hrun := run_name hopen hcommand
  rw [Command.perform_remove_run hheard, store_of_open hopen, hcount] at hrun
  rw [show ["rm", p] = [CommandName.remove.spelling, p] from rfl, hrun]
  exact ⟨rfl, rfl⟩

end

end CommandLine

end FileDepot
