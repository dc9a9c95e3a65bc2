import FileDepot.Proofs.Store.Patterns

/-!
# Streams opened for a pattern

The files that a pattern finds are opened one after another, and any opening may fail. The calls are kept in a list, to
tell which of them were made and what each has answered.

Contents:

* `Opening`, `Template.recorded` — a call that opens a stream, and openings that keep a list of the calls;
* `Template.openEach_recorded` — the list changes nothing;
* `Template.Tidy` — no stream of a failed resolution stays open, and all streams of another one do;
* `Template.openEach_tidy` — files opened one after another, from any files opened before;
* `Template.resources_tidy` — the resolution of a pattern, however its openings answer.
-/

namespace FileDepot

/-- A call that opens a stream for a file, and what it has answered. -/
structure Opening where
  file : StoredFile
  answer : Except Failure ByteStream

/-- A file with the stream that has been opened for it. -/
abbrev Opened := StoredFile × ByteStream

namespace Opened

/-- The call that has opened the stream. -/
def opening (o : Opened) : Opening :=
  ⟨o.1, .ok o.2⟩

/-- The resource of the file with the stream as it is after opening. -/
def resource (o : Opened) : Resource :=
  { file := o.1.record, stream := o.2 }

end Opened

namespace Template

variable {σ : Type} {openNext : StoredFile → σ → Except Failure ByteStream × σ}

/-! ## Openings with a list of the calls -/

/-- The openings, with a list of the calls so far beside the state. -/
def recorded (openNext : StoredFile → σ → Except Failure ByteStream × σ) (f : StoredFile)
    (s : σ × List Opening) : Except Failure ByteStream × σ × List Opening :=
  let (answer, next) := openNext f s.1
  (answer, next, s.2 ++ [⟨f, answer⟩])

theorem recorded_eq {f : StoredFile} {s s' : σ} {answer : Except Failure ByteStream}
    (h : openNext f s = (answer, s')) (calls : List Opening) :
    recorded openNext f (s, calls) = (answer, s', calls ++ [⟨f, answer⟩]) := by
  rw [recorded, h]

/-- The list of the calls changes nothing. -/
theorem openEach_recorded (resources : List Resource) (files : List StoredFile) (s : σ) (calls : List Opening) :
    let run := openEach (recorded openNext) resources files (s, calls)
    (run.1, run.2.1) = openEach openNext resources files s := by
  induction files generalizing resources s calls with
  | nil => rfl
  | cons f files ih =>
    rcases hanswer : openNext f s with ⟨answer, s'⟩
    rw [openEach, openEach, hanswer, recorded_eq hanswer]
    cases answer with
    | ok stream => exact ih _ s' _
    | error e => rfl

/-! ## Resolutions that leak nothing -/

/-- The resolution of files by these calls leaks no stream. -/
structure Tidy (files : List StoredFile) (calls : List Opening) (r : Resolution) : Prop where
  /-- A failure is that of the last call, the first one that fails, and all streams opened before are closed. -/
  failed : ∀ e, r.failure = some e → ∃ opened : List Opened, ∃ f rest,
    files = opened.map Prod.fst ++ f :: rest ∧ calls = opened.map Opened.opening ++ [⟨f, .error e⟩] ∧
      r.resources = opened.map (fun o => o.resource.close) ∧ ∀ o ∈ r.resources, o.stream.closed = true
  /-- Without a failure each file has its resource, in order, with a stream that is still open. -/
  returned : r.failure = none → ∃ opened : List Opened,
    files = opened.map Prod.fst ∧ calls = opened.map Opened.opening ∧
      r.resources = opened.map Opened.resource ∧ ∀ o ∈ r.resources, o.stream.closed = false

/-- A failed call closes the streams that were opened before it. -/
theorem tidy_of_failed (opened : List Opened) (f : StoredFile) (rest : List StoredFile) (e : Failure) :
    Tidy (opened.map Prod.fst ++ f :: rest) (opened.map Opened.opening ++ [⟨f, .error e⟩])
      { resources := (opened.map Opened.resource).map Resource.close, failure := some e } where
  failed e' he' := by
    obtain rfl : e = e' := Option.some.inj he'
    have hclosed : ∀ o ∈ (opened.map Opened.resource).map Resource.close, o.stream.closed = true := by
      intro o ho
      obtain ⟨o, -, rfl⟩ := List.mem_map.mp ho
      rfl
    exact ⟨opened, f, rest, rfl, rfl, List.map_map, hclosed⟩
  returned hnone := by cases hnone

/-- Nothing is closed if there is nothing left to open. -/
theorem tidy_of_opened {opened : List Opened} (hopened : ∀ o ∈ opened, o.2.closed = false) :
    Tidy (opened.map Prod.fst) (opened.map Opened.opening) { resources := opened.map Opened.resource } where
  failed e he := by cases he
  returned _ := by
    refine ⟨opened, rfl, rfl, rfl, fun r hr => ?_⟩
    obtain ⟨o, ho, rfl⟩ := List.mem_map.mp hr
    exact hopened o ho

/-- **Files are opened one after another without a leak**, from any files that were opened before. -/
theorem openEach_tidy (hopen : ∀ f s stream, (openNext f s).1 = .ok stream → stream.closed = false)
    {opened : List Opened} (hopened : ∀ o ∈ opened, o.2.closed = false) (files : List StoredFile) (s : σ) :
    let run := openEach (recorded openNext) (opened.map Opened.resource) files (s, opened.map Opened.opening)
    Tidy (opened.map Prod.fst ++ files) run.2.2 run.1 := by
  -- the calls and the resources so far are those of the files opened so far
  induction files generalizing opened s with
  | nil =>
    rw [List.append_nil]
    exact tidy_of_opened hopened
  | cons f files ih =>
    intro run
    rcases hanswer : openNext f s with ⟨answer, s'⟩
    have hrun : run = openEach (recorded openNext) (opened.map Opened.resource) (f :: files)
      (s, opened.map Opened.opening) := rfl
    rw [openEach, recorded_eq hanswer] at hrun
    cases answer with
    | error e =>
      rw [hrun]
      exact tidy_of_failed opened f files e
    | ok stream =>
      have hstream : stream.closed = false := hopen f s stream (by rw [hanswer])
      have hmore : ∀ o ∈ opened ++ [(f, stream)], o.2.closed = false := by
        intro o ho
        rcases List.mem_append.mp ho with ho | ho
        · exact hopened o ho
        · obtain rfl := List.mem_singleton.mp ho
          exact hstream
      have hrest := ih hmore s'
      simp only [List.map_append, List.append_assoc] at hrest
      rw [hrun]
      exact hrest

/-! ## Patterns -/

/-- The streams of a bucket are open at first. -/
theorem openStream_open (t : Template) {name : String} {s : Store} {stream : ByteStream}
    (h : ((t.openStream name).run s).1 = .ok stream) : stream.closed = false := by
  have hanswer : ((s.bucket t.bucketName).openByName name).2 = .ok stream := by
    rw [openStream_run] at h
    exact h
  generalize s.bucket t.bucketName = b at hanswer
  unfold Bucket.openByName at hanswer
  by_cases hlimit : (b.openLimit.any fun n => n ≤ b.opened) = true
  · rw [if_pos hlimit] at hanswer
    cases hanswer
  · rw [if_neg hlimit] at hanswer
    cases hnewest : b.newest? name with
    | none =>
      rw [hnewest] at hanswer
      cases hanswer
    | some f =>
      rw [hnewest] at hanswer
      cases hanswer
      rfl

/-- **The resolution of a pattern leaks no stream.** The files that its expression finds are opened one after another,
and however the openings answer, the first failure among them is the last call, is raised, and leaves no stream open,
and without a failure there is a resource with an open stream for each file in order. -/
theorem resources_tidy (t : Template) {path : String}
    (hpattern : (Glob.withSeparator path none).hasWildcard = true) :
    (∀ s, (t.resources (some path)).run s =
      match (t.find (some (byExpression (Glob.withSeparator path none).expression))).run
          (s.asked t.bucketName) with
      | (.error e, s) => ({ resources := [], failure := some e }, s)
      | (.ok cursor, s) => openEach (fun f => (t.openStream f.filename).run) [] cursor.files s) ∧
    (∀ name s stream, ((t.openStream name).run s).1 = .ok stream → stream.closed = false) ∧
    ∀ (σ : Type) (openNext : StoredFile → σ → Except Failure ByteStream × σ),
      (∀ f s stream, (openNext f s).1 = .ok stream → stream.closed = false) → ∀ files s,
        let run := openEach (recorded openNext) [] files (s, [])
        (run.1, run.2.1) = openEach openNext [] files s ∧ Tidy files run.2.2 run.1 := by
  have hblank := Glob.isBlankText_of_hasWildcard hpattern
  refine ⟨t.resources_run_pattern hblank hpattern, fun name s stream => t.openStream_open, ?_⟩
  intro σ openNext hopen files s run
  have hnone : ∀ o ∈ ([] : List Opened), o.2.closed = false := by simp
  exact ⟨openEach_recorded [] files s [], openEach_tidy hopen hnone files s⟩

/-- Of three files the second cannot be opened. The first one's stream is closed, and the third is not tried. -/
theorem resources_tidy_second_fails :
    let file (name : String) : StoredFile := { (default : StoredFile) with filename := name, content := [104, 105] }
    let openNext (f : StoredFile) (left : Nat) : Except Failure ByteStream × Nat :=
      if left = 0 then (.error (.noFile s!"{f.filename} was deleted"), left)
      else (.ok { remaining := f.content }, left - 1)
    let run := openEach (recorded openNext) [] [file "a.txt", file "b.txt", file "c.txt"] (1, [])
    (Glob.withSeparator "*.txt" none).hasWildcard = true ∧ run.1.failure = some (.noFile "b.txt was deleted") ∧
      run.2.2.map (·.file.filename) = ["a.txt", "b.txt"] ∧ ∀ o ∈ run.1.resources, o.stream.closed = true := by
  intro file openNext run
  have hpattern : (Glob.withSeparator "*.txt" none).hasWildcard = true := by decide
  have hopen : ∀ f left stream, (openNext f left).1 = .ok stream → stream.closed = false := by
    intro f left stream h
    by_cases hleft : left = 0
    · simp [openNext, hleft] at h
    · simp only [openNext, if_neg hleft] at h
      obtain rfl := Except.ok.inj h
      rfl
  have htidy := ((resources_tidy {} hpattern).2.2 Nat openNext hopen
    [file "a.txt", file "b.txt", file "c.txt"] 1).2
  have hfailure : run.1.failure = some (.noFile "b.txt was deleted") := rfl
  obtain ⟨-, -, -, -, -, -, hclosed⟩ := htidy.failed _ hfailure
  exact ⟨hpattern, hfailure, rfl, hclosed⟩

end Template

end FileDepot
