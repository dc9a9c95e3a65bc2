import FileDepot.Logging.Manager
import FileDepot.Proofs.Logging.Applying
import FileDepot.Proofs.Settings.Sections

/-!
# The section on logging

The section on logging is checked before it is taken over: its version is a number, the mark of loggers to disable is
an answer, and the mappings have texts as keys. Texts that are numbers or answers announce no reference. So the
entries that have been checked can be taken into use as they are, and only what no field takes may still refer to
something else.

Contents:

* `Reference.head?_of_ofText?`, `Setting.ofText?_eq_none` — references are neither numbers nor answers;
* `Setting.firm_of_whole`, `Setting.firm_of_flag`, `Setting.firm_of_mapping` — what has been checked can be taken
  into use;
* `LogSettings.ReadFrom`, `LogSettings.ofEntries_accepted` — the fields of an accepted section;
* `LogSettings.Direct`, `LogSettings.firm_of_accepted` — sections without references outside of their mappings.
-/

namespace FileDepot

/-! ## References are no numbers and no answers -/

theorem oneLine?_eq_some {cs line : List Char} (h : oneLine? cs = some line) : line <+: cs := by
  have hline : (if cs.getLast? = some '\n' then cs.dropLast else cs) <+: cs := by
    split
    · exact List.dropLast_prefix cs
    · exact List.prefix_refl cs
  unfold oneLine? at h
  generalize (if cs.getLast? = some '\n' then cs.dropLast else cs) = shortened at h hline
  simp only at h
  split at h
  · cases h
  · obtain rfl := Option.some.inj h
    exact hline

/-- A reference starts with the first letter of what announces it. -/
theorem Reference.head?_of_ofText? {s : String} {r : Reference} (h : Reference.ofText? s = some r) :
    s.toList.head? = some 'e' ∨ s.toList.head? = some 'c' := by
  unfold Reference.ofText? at h
  obtain ⟨line, hline, h⟩ := Option.bind_eq_some_iff.mp h
  obtain ⟨behind, hbehind⟩ := oneLine?_eq_some hline
  rw [← hbehind]
  split at h
  · next name hname =>
    left
    rw [Text.dropPrefix?_eq_some.mp hname]
    rfl
  · obtain ⟨path, hpath, -⟩ := Option.map_eq_some_iff.mp h
    right
    rw [Text.dropPrefix?_eq_some.mp hpath]
    rfl

namespace Setting

/-- A sign that is no blank stays the first one. -/
theorem head?_withoutMargins {c : Char} {cs : List Char} (hc : isMargin c = false) (hhead : cs.head? = some c) :
    ∃ rest, withoutMargins cs = c :: rest := by
  cases cs with
  | nil => cases hhead
  | cons d cs =>
    obtain rfl := Option.some.inj hhead
    unfold withoutMargins
    rw [List.dropWhile_cons_of_neg (by simp [hc]), List.reverse_cons, List.dropWhile_append]
    split
    · rw [List.dropWhile_cons_of_neg (by simp [hc])]
      exact ⟨[], rfl⟩
    · rw [List.reverse_append]
      exact ⟨_, rfl⟩

theorem wholeOfText_of_letter {s : String} (h : s.toList.head? = some 'e' ∨ s.toList.head? = some 'c') :
    wholeOfText s = .error .readableWhole := by
  unfold wholeOfText
  rcases h with h | h
  · obtain ⟨rest, hrest⟩ := head?_withoutMargins (by decide) h
    rw [hrest]
    rfl
  · obtain ⟨rest, hrest⟩ := head?_withoutMargins (by decide) h
    rw [hrest]
    rfl

theorem flagOfText_of_letter {s : String} (h : s.toList.head? = some 'e' ∨ s.toList.head? = some 'c') :
    flagOfText s = .error .readableFlag := by
  have hlowered : (plainLowered s).toList.head? = some 'e' ∨ (plainLowered s).toList.head? = some 'c' := by
    unfold plainLowered
    rw [String.toList_ofList, List.head?_map]
    rcases h with h | h
    · rw [h]
      exact .inl rfl
    · rw [h]
      exact .inr rfl
  have hwords : ∀ w ∈ refusals ++ consents, w.toList.head? ≠ some 'e' ∧ w.toList.head? ≠ some 'c' := by decide
  have hunknown : ∀ words : List String, (∀ w ∈ words, w ∈ refusals ++ consents) →
      words.contains (plainLowered s) = false := by
    intro words hsub
    by_contra hword
    have hmem : plainLowered s ∈ words := by simpa using hword
    rcases hlowered with hhead | hhead
    · exact (hwords _ (hsub _ hmem)).1 hhead
    · exact (hwords _ (hsub _ hmem)).2 hhead
  unfold flagOfText
  simp only [hunknown refusals fun w hw => List.mem_append_left _ hw,
    hunknown consents fun w hw => List.mem_append_right _ hw]
  rfl

/-! ## Accepted values can be taken into use -/

theorem calm_characters (s : String) : ∀ w ∈ Value.characters s, w.Calm := by
  intro w hw
  obtain ⟨c, -, rfl⟩ := List.mem_map.mp hw
  exact .inl ⟨_, rfl⟩

theorem calm_byteNumbers (bs : Bytes) : ∀ w ∈ Value.byteNumbers bs, w.Calm := by
  intro w hw
  obtain ⟨b, -, rfl⟩ := List.mem_map.mp hw
  exact .inr ⟨_, rfl⟩

/-- A text that is no reference. -/
theorem firm_text {v : Value} {s : String} (hv : v = .text s ∨ v = .textMember s)
    (h : Reference.ofText? s = none) : v.Firm Value.Calm := by
  have helements : ∀ vs, some (Value.characters s) = some vs → ∀ w ∈ vs, w.Calm := by
    rintro vs hvs
    obtain rfl := Option.some.inj hvs
    exact calm_characters s
  rcases hv with rfl | rfl <;> exact ⟨h, helements⟩

theorem ofText?_eq_none {α : Type} {read : String → Except Rule α} {r : Rule}
    (hread : ∀ s : String, s.toList.head? = some 'e' ∨ s.toList.head? = some 'c' → read s = .error r)
    {s : String} {a : α} (h : read s = .ok a) : Reference.ofText? s = none := by
  cases href : Reference.ofText? s with
  | none => rfl
  | some ref =>
    rw [hread s (Reference.head?_of_ofText? href)] at h
    cases h

/-- A number that has been checked. -/
theorem firm_of_whole {v : Value} {n : Int} (h : whole v = .ok n) : v.Firm Value.Calm := by
  cases v with
  | text s => exact firm_text (.inl rfl) (ofText?_eq_none (fun s => wholeOfText_of_letter) h)
  | textMember s => exact firm_text (.inr rfl) (ofText?_eq_none (fun s => wholeOfText_of_letter) h)
  | bytes bs | binary bs _ => exact ⟨rfl, fun vs hvs => Option.some.inj hvs ▸ calm_byteNumbers bs⟩
  | bool _ | int _ | intMember _ | float _ | decimal _ | member _ => exact ⟨rfl, fun vs hvs => nomatch hvs⟩
  | _ => cases h

/-- An answer that has been checked. -/
theorem firm_of_flag {v : Value} {b : Bool} (h : flag v = .ok b) : v.Firm Value.Calm := by
  cases v with
  | text s => exact firm_text (.inl rfl) (ofText?_eq_none (fun s => flagOfText_of_letter) h)
  | textMember s => exact firm_text (.inr rfl) (ofText?_eq_none (fun s => flagOfText_of_letter) h)
  | bytes bs | binary bs _ => exact ⟨rfl, fun vs hvs => Option.some.inj hvs ▸ calm_byteNumbers bs⟩
  | bool _ | int _ | intMember _ | float _ | decimal _ => exact ⟨rfl, fun vs hvs => nomatch hvs⟩
  | _ => cases h

/-- The keys of a mapping that has been checked are texts. -/
theorem textEntries_eq_accepted {place : List String} {es fs : Entries} (h : textEntries place es = .accepted fs) :
    List.Forall₂ (fun e f => ∃ s, text e.1 = .ok s ∧ f = (.text s, e.2)) es fs := by
  induction es generalizing fs with
  | nil =>
    cases h
    exact .nil
  | cons e es ih =>
    obtain ⟨front, rest, hfront, hrest, rfl⟩ := Checked.seq_eq_accepted.mp h
    obtain ⟨f, hf, rfl⟩ := Checked.map_eq_accepted.mp hfront
    refine .cons ?_ (ih hrest)
    unfold textEntry at hf
    split at hf
    · next s hs =>
      cases hf
      exact ⟨s, hs, rfl⟩
    · cases hf

theorem mapping_eq_accepted {place : List String} {v : Value} {fs : Entries} (h : mapping place v = .accepted fs) :
    ∃ kind es gs, v = .map kind es ∧ textEntries place es = .accepted gs ∧ fs = Entries.ofPairs gs := by
  cases v with
  | map kind es =>
    obtain ⟨gs, hgs, rfl⟩ := Checked.map_eq_accepted.mp h
    exact ⟨kind, es, gs, rfl, hgs, rfl⟩
  | _ => cases h

/-- A mapping that has been checked. -/
theorem firm_of_mapping {place : List String} {v : Value} {fs : Entries} (h : mapping place v = .accepted fs) :
    v.Firm Value.Calm := by
  obtain ⟨kind, es, gs, rfl, hgs, -⟩ := mapping_eq_accepted h
  intro e he
  obtain ⟨f, -, s, hs, -⟩ := exists_related_left (textEntries_eq_accepted hgs).flip he
  exact .inl ⟨s, hs⟩

end Setting

/-! ## The section -/

/-- A mapping as it is read: from its value if there is one, and else empty. -/
def Setting.MappingAs (place : List String) (given : Option Value) (fs : Entries) : Prop :=
  match given with
  | none => fs = []
  | some v => mapping place v = .accepted fs

theorem Setting.fieldWith_mapping {place : List String} {es fs : Entries} {name : String}
    (h : fieldWith place es name [] mapping = .accepted fs) :
    MappingAs (place ++ [name]) (es.get? name) fs := by
  unfold fieldWith at h
  unfold MappingAs
  cases hentry : es.get? name with
  | none =>
    rw [hentry] at h
    cases h
    rfl
  | some v =>
    rw [hentry] at h
    exact h

namespace LogSettings

/-- The fields as they are read. -/
structure ReadFrom (place : List String) (es : Entries) (s : LogSettings) : Prop where
  version : Setting.ReadAs (es.get? "version") 1 Setting.whole s.version
  disablesExisting : Setting.ReadAs (es.get? "disable_existing_loggers") false Setting.flag s.disablesExisting
  formatters : Setting.MappingAs (place ++ ["formatters"]) (es.get? "formatters") s.formatters
  handlers : Setting.MappingAs (place ++ ["handlers"]) (es.get? "handlers") s.handlers
  root : Setting.MappingAs (place ++ ["root"]) (es.get? "root") s.root
  loggers : Setting.MappingAs (place ++ ["loggers"]) (es.get? "loggers") s.loggers
  extra : extraEntries place es = .accepted s.extra

/-- Accepted fields have been read from their entries. -/
theorem ofEntries_accepted {place : List String} {es : Entries} {s : LogSettings}
    (h : ofEntries place es = .accepted s) : s.ReadFrom place es := by
  unfold ofEntries at h
  obtain ⟨withExtra, extra, hsix, hextra, rfl⟩ := Checked.seq_eq_accepted.mp h
  obtain ⟨withLoggers, loggers, hfive, hloggers, rfl⟩ := Checked.seq_eq_accepted.mp hsix
  obtain ⟨withRoot, root, hfour, hroot, rfl⟩ := Checked.seq_eq_accepted.mp hfive
  obtain ⟨withHandlers, handlers, hthree, hhandlers, rfl⟩ := Checked.seq_eq_accepted.mp hfour
  obtain ⟨withFormatters, formatters, htwo, hformatters, rfl⟩ := Checked.seq_eq_accepted.mp hthree
  obtain ⟨withDisables, disables, hone, hdisables, rfl⟩ := Checked.seq_eq_accepted.mp htwo
  obtain ⟨version, hversion, rfl⟩ := Checked.map_eq_accepted.mp hone
  exact {
    version := Setting.field_eq_accepted.mp hversion
    disablesExisting := Setting.field_eq_accepted.mp hdisables
    formatters := Setting.fieldWith_mapping hformatters
    handlers := Setting.fieldWith_mapping hhandlers
    root := Setting.fieldWith_mapping hroot
    loggers := Setting.fieldWith_mapping hloggers
    extra := hextra }

/-- What no field takes leads nowhere else: filters and the mark of an addition are no references. -/
def Direct (es : Entries) : Prop :=
  ∀ name ∈ ["filters", "incremental"], ∀ v, es.get? name = some v → v.Firm Value.Calm

/-- The entries at which the steps of a configuration look can be taken into use. -/
theorem firm_of_accepted {place : List String} {es : Entries} {s : LogSettings} (h : ofEntries place es = .accepted s)
    (hdirect : Direct es) : ∀ name ∈ Draft.firmNames, ∀ v, es.get? name = some v → v.Firm Value.Calm := by
  have hread := ofEntries_accepted h
  have hmapping : ∀ {place name fs}, Setting.MappingAs place (es.get? name) fs →
      ∀ v, es.get? name = some v → v.Firm Value.Calm := by
    intro place name fs hfs v hv
    rw [hv] at hfs
    exact Setting.firm_of_mapping hfs
  have hversion : ∀ v, es.get? "version" = some v → v.Firm Value.Calm := by
    intro v hv
    have hwhole := hread.version
    rw [hv] at hwhole
    exact Setting.firm_of_whole hwhole
  have hdisables : ∀ v, es.get? "disable_existing_loggers" = some v → v.Firm Value.Calm := by
    intro v hv
    have hflag := hread.disablesExisting
    rw [hv] at hflag
    exact Setting.firm_of_flag hflag
  simp only [Draft.firmNames, List.forall_mem_cons]
  exact ⟨hversion, hdisables, hdirect "incremental" (by decide), hmapping hread.formatters,
    hdirect "filters" (by decide), hmapping hread.handlers, hmapping hread.loggers, hmapping hread.root,
    List.forall_mem_nil _⟩

end LogSettings

end FileDepot
