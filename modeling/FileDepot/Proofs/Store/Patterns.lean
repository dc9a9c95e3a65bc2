import FileDepot.Proofs.Glob.Compiled
import FileDepot.Proofs.Store.Lookups
import FileDepot.Proofs.Store.Resolution

/-!
# Patterns sent to a store

A pattern is sent to a store as a filter on the name of a file, and there its expression is searched for in
the name. As the expression is anchored, searching for it is matching it from the start, so the store lists
the files whose names the pattern matches by itself.

Contents:

* `Glob.accepts`, `Glob.accepted` — the names that a pattern matches, and the files of such names;
* `Glob.searches_expression` — the expression of a pattern is found in the names that it matches;
* `Filter.regexAccepts_text`, `Bucket.lookup_ofExpression` — the filter of an expression, tested on records;
* `Template.find_byExpression`, `Template.resources_of_pattern`, `Template.delete_byExpression` — what a
  pattern finds, resolves to and deletes;
* `Template.find_unreadable` — what a pattern does whose expression cannot be read.
-/

namespace FileDepot

/-! ## The answer of a pattern -/

namespace Glob

/-- The pattern matches the name. -/
def accepts (g : Glob) (name : String) : Bool :=
  (g.matches name).toOption.getD false

/-- The files whose names the pattern matches, in their order. -/
def accepted (g : Glob) (files : List StoredFile) : List StoredFile :=
  files.filter fun f => g.accepts f.filename

section

variable {g : Glob} {r : Regex} (h : Regex.read g.expressionChars = .ok r)

include h

theorem readWith_of_read : Regex.readWith {} g.expressionChars = .ok (g.compiled, {}) :=
  readWith_expressionChars (upright_of_read h)

theorem matches_of_read (name : String) : g.matches name = .ok (g.compiled.matchesStart {} name.toList) := by
  rw [«matches», Regex.read, readWith_of_read h]
  rfl

theorem accepts_of_read (name : String) : g.accepts name = g.compiled.matchesStart {} name.toList := by
  rw [accepts, matches_of_read h]
  rfl

/-- **Searching is matching.** The expression is found in the names that the pattern matches. -/
theorem searches_expression (engine : Engine) (name : String) :
    StoredRegex.searches engine ⟨.text g.expression, 0⟩ name = .ok (g.accepts name) := by
  have hchars : Pattern.PatternSource.chars (.text g.expression) = g.expressionChars := String.toList_ofList
  have hoptions : Pattern.optionsOf 0 = {} := rfl
  have hsearch : Pattern.searches engine ⟨.text g.expression, 0⟩ name =
      .ok (g.compiled.searches {} name.toList) := by
    rw [Pattern.searches]
    simp only [hchars, hoptions, readWith_of_read h]
  have hflags : StoredRegex.flagFault? ⟨.text g.expression, 0⟩ = none := by
    simp [StoredRegex.flagFault?, Pattern.hasFlag]
  rw [StoredRegex.searches]
  simp only [hsearch, hflags]
  rw [accepts_of_read h, compiled, Regex.searches_anchored rfl]

end

theorem ne_empty_of_hasWildcard {path : String} (h : (Glob.withSeparator path none).hasWildcard = true) :
    path ≠ "" := by
  rintro rfl
  simp [hasWildcard, withSeparator] at h

/-- A pattern with a wildcard is not blank. -/
theorem isBlankText_of_hasWildcard {path : String} (h : (Glob.withSeparator path none).hasWildcard = true) :
    Text.isBlankText path = false := by
  obtain ⟨c, hc, hwild⟩ := List.any_eq_true.mp h
  have hblank : Text.isBlank c = false := by
    have hnone : wildcards.all (fun c => !Text.isBlank c) = true := by decide +kernel
    simpa using List.all_eq_true.mp hnone c (by simpa using hwild)
  have hcontent : Text.hasContent path.toList = true := List.any_eq_true.mpr ⟨c, hc, by simp [hblank]⟩
  rw [Text.isBlankText, hcontent]
  rfl

end Glob

/-! ## The filter of an expression -/

namespace Filter

/-- A text as a pattern is searched for, without options under no flags. -/
theorem regexAccepts_text (engine : Engine) (expression text : String) :
    regexAccepts engine (.text expression) (.text "") (.text text) =
      patternAnswer (StoredRegex.searches engine ⟨.text expression, 0⟩ text) := by
  have hoption : (Value.text "").contains (.text "i") = .ok false := by decide +kernel
  simp only [regexAccepts, Value.text?, hoption, Value.patternSource?]
  rfl

end Filter

/-- What is asked of a bucket for the files whose names an expression matches. -/
def Lookup.ofExpression (expression : String) : Lookup where
  filter := [(.text "filename", .document [(.text "$regex", .text expression)])]

/-- A bucket lists the files whose names the pattern matches. -/
theorem Bucket.lookup_ofExpression (b : Bucket) (engine : Engine) {g : Glob} {r : Regex}
    (h : Regex.read g.expressionChars = .ok r) :
    b.lookup engine (.ofExpression g.expression) = .ok (g.accepted b.files) := by
  have haccepts : ∀ f ∈ b.files,
      Filter.accepts engine f.document (Lookup.ofExpression g.expression).filter = .ok (g.accepts f.filename) := by
    intro f _
    rw [Lookup.ofExpression, Filter.accepts_field _ _ _ (by decide) (by decide), f.document_filename,
      Filter.conditionAccepts_operator _ _ _ (by decide) (by decide), Filter.operatorAccepts,
      Filter.regexAccepts_text, Glob.searches_expression h]
    rfl
  rw [lookup, Filter.select_of_accepts haccepts]
  rfl

/-! ## What a pattern finds -/

namespace Template

/-- The query of an expression is sent as such. -/
theorem lookupFor_byExpression (expression : String) :
    lookupFor (some (byExpression expression)) = .ok (.ofExpression expression) :=
  lookupFor_of_writable rfl rfl

section

variable {t : Template} {s : Store} {p : String} {r : Regex}
  (h : Regex.read (Glob.withSeparator p none).expressionChars = .ok r)

include h

/-- The lookup of a pattern lists the files whose names it matches. -/
theorem find_byExpression :
    ((t.find (some (byExpression (Glob.withSeparator p none).expression))).run s).1 =
      .ok { lookup := .ofExpression (Glob.withSeparator p none).expression
            files := (Glob.withSeparator p none).accepted (s.bucket t.bucketName).files } := by
  rw [find_run, lookupFor_byExpression]
  simp only
  rw [Bucket.lookup_ofExpression _ _ h]
  rfl

/-- **A pattern resolves to the files whose names it matches**, each once and in their order. -/
theorem resources_of_pattern (hs : s.Sound) (hwild : (Glob.withSeparator p none).hasWildcard = true) :
    ((t.resources (some p)).run s).1.failure = none ∧
      ((t.resources (some p)).run s).1.resources.map Resource.file =
        ((Glob.withSeparator p none).accepted (s.bucket t.bucketName).files).map StoredFile.record := by
  rw [resources_eq hs (Glob.isBlankText_of_hasWildcard hwild) hwild, find_byExpression h]
  refine ⟨rfl, ?_⟩
  rw [List.map_map]
  rfl

/-- **A deletion by a pattern removes the files whose names it matches** and keeps the others in their
    order. -/
theorem delete_byExpression (hs : s.Reachable) :
    let g := Glob.withSeparator p none
    let run := (t.delete (some (byExpression g.expression))).run s
    run.1 = .ok (g.accepted (s.bucket t.bucketName).files).length ∧
      (run.2.bucket t.bucketName).files =
        (s.bucket t.bucketName).files.filter (fun f => !g.accepts f.filename) ∧
      ∀ other, other ≠ t.bucketName → run.2.bucket other = s.bucket other := by
  obtain ⟨hcount, hloses⟩ := delete_of_found hs (find_byExpression h)
  refine ⟨hcount, ?_, hloses.others⟩
  rw [hloses.bucket]
  exact (hs.sound t.bucketName).distinct.files_without_filter _

end

end Template

/-! ## Expressions that cannot be read -/

/-- How a bucket answers an expression that cannot be read, once there is a name to search. -/
def Glob.refusal (g : Glob) (e : Regex.Error) : Failure :=
  .badExpression (e.message g.expression)

section

variable {g : Glob} {e : Regex.Error} (h : Regex.read g.expressionChars = .error e)

include h

theorem Glob.searches_unreadable (engine : Engine) (name : String) :
    StoredRegex.searches engine ⟨.text g.expression, 0⟩ name = .error (.unreadable e g.expression) := by
  have hchars : Pattern.PatternSource.chars (.text g.expression) = g.expressionChars := String.toList_ofList
  have hoptions : Pattern.optionsOf 0 = {} := rfl
  have hread : Regex.readWith {} g.expressionChars = .error e := by
    unfold Regex.read at h
    cases hwith : Regex.readWith {} g.expressionChars with
    | ok read =>
      rw [hwith] at h
      cases h
    | error e' =>
      rw [hwith] at h
      rw [Except.error.inj h]
  have hsearch : Pattern.searches engine ⟨.text g.expression, 0⟩ name = .error (.unreadable e g.expression) := by
    obtain ⟨r, -, rfl⟩ := error_of_read h
    rw [Pattern.searches]
    simp only [hchars, hoptions, hread]
    rfl
  rw [StoredRegex.searches]
  simp only [hsearch]

/-- The expression is read for every file, so that only an empty bucket does not refuse it. -/
theorem Bucket.lookup_unreadable (b : Bucket) (engine : Engine) :
    b.lookup engine (.ofExpression g.expression) = if b.files.isEmpty then .ok [] else .error (g.refusal e) := by
  have hrefuses (f : StoredFile) :
      Filter.accepts engine f.document (Lookup.ofExpression g.expression).filter = .error (g.refusal e) := by
    rw [Lookup.ofExpression, Filter.accepts_field _ _ _ (by decide) (by decide), f.document_filename,
      Filter.conditionAccepts_operator _ _ _ (by decide) (by decide), Filter.operatorAccepts,
      Filter.regexAccepts_text, Glob.searches_unreadable h]
    rfl
  rw [lookup]
  cases b.files with
  | nil => rfl
  | cons f fs =>
    rw [Filter.select, hrefuses]
    rfl

/-- The lookup of a pattern fails if the bucket has a file, and lists nothing otherwise. -/
theorem Template.find_unreadable (t : Template) (s : Store) :
    ((t.find (some (byExpression g.expression))).run s).1 =
      if (s.bucket t.bucketName).files.isEmpty then .ok { lookup := .ofExpression g.expression, files := [] }
      else .error (g.refusal e) := by
  rw [find_run, lookupFor_byExpression]
  simp only
  rw [Bucket.lookup_unreadable h]
  split <;> rfl

end

end FileDepot
