import FileDepot.Proofs.Settings.Layers

/-!
# Accepted settings

Values come from a file and from variables, as texts, as numbers or as neither, and the fields take, check and
rewrite them. What passes satisfies the rules that the later steps rely on, wherever it came from.

Contents:

* `Text.Trimmed`, `Text.trimmed_stripped` — a text without blanks at its ends;
* `DatabaseSettings.Sound` — the rules;
* `DatabaseSettings.nameOf_eq_ok`, `DatabaseSettings.bucketOf_eq_ok`, … — what each field lets through;
* `SettingsSource.settings_sound` — accepted settings satisfy the rules.
-/

namespace FileDepot

/-! ## Texts without blanks at their ends -/

namespace Text

/-- The text neither starts nor ends with a blank. -/
def Trimmed (s : String) : Prop :=
  (∀ c, s.toList.head? = some c → isBlank c = false) ∧ ∀ c, s.toList.getLast? = some c → isBlank c = false

theorem head?_dropWhile_isBlank {cs : List Char} {c : Char} (h : (cs.dropWhile isBlank).head? = some c) :
    isBlank c = false := by
  have hnot := List.head?_dropWhile_not isBlank cs
  rw [h] at hnot
  exact hnot

/-- Stripping the end leaves the start. -/
theorem head?_stripEnd {cs : List Char} {c : Char} (h : (stripEnd cs).head? = some c) : cs.head? = some c := by
  have hstart : stripEnd cs <+: cs := by
    unfold stripEnd
    simpa using (List.dropWhile_suffix isBlank (l := cs.reverse)).reverse
  obtain ⟨rest, hrest⟩ := hstart
  rw [← hrest, List.head?_append, h]
  rfl

theorem getLast?_stripEnd {cs : List Char} {c : Char} (h : (stripEnd cs).getLast? = some c) :
    isBlank c = false := by
  unfold stripEnd at h
  rw [List.getLast?_reverse] at h
  exact head?_dropWhile_isBlank h

theorem trimmed_stripped (s : String) : Trimmed (stripped s) := by
  unfold Trimmed stripped strip
  rw [String.toList_ofList]
  exact ⟨fun c h => head?_dropWhile_isBlank (head?_stripEnd h), fun c h => getLast?_stripEnd h⟩

theorem stripped_ne_empty {s : String} (h : isBlankText s = false) : stripped s ≠ "" := by
  have hcontent : strip s.toList ≠ [] := hasContent_iff_strip_ne_nil.mp (by simpa [isBlankText] using h)
  intro hempty
  refine hcontent ?_
  rw [← String.toList_ofList (l := strip s.toList)]
  exact congrArg String.toList hempty

/-- A text that is not empty and starts with no blank has something in it. -/
theorem Trimmed.not_blank {s : String} (h : Trimmed s) (hs : s ≠ "") : isBlankText s = false := by
  cases hcs : s.toList with
  | nil => exact absurd (String.toList_inj.mp hcs) hs
  | cons c cs =>
    have hc : isBlank c = false := h.1 c (by rw [hcs]; rfl)
    simp [isBlankText, hasContent, hcs, hc]

end Text

/-! ## What the fields let through -/

/-- What holds of a default and of every value that is taken holds of the field. -/
theorem Setting.ReadAs.of_taken {α : Type} {P : α → Prop} {given : Option Value} {absent a : α}
    {take : Value → Except Rule α} (h : ReadAs given absent take a) (habsent : P absent)
    (htaken : ∀ v, take v = .ok a → P a) : P a := by
  cases given with
  | none =>
    have ha : a = absent := h
    rwa [ha]
  | some v => exact htaken v h

namespace Setting

theorem orNull_eq_some {α : Type} {take : Value → Except Rule α} {v : Value} {a : α}
    (h : orNull take v = .ok (some a)) : take v = .ok a := by
  unfold orNull at h
  split at h
  · cases h
  · obtain ⟨b, hb, hba⟩ := map_eq_ok.mp h
    rw [hb, Option.some.inj hba]

theorem wholeFrom_eq_ok {least n : Int} {v : Value} (h : wholeFrom least v = .ok n) : least ≤ n := by
  obtain ⟨m, -, h⟩ := bind_eq_ok.mp h
  split at h
  · cases h
  · obtain rfl := Except.ok.inj h
    omega

theorem wholeBetween_eq_ok {least most n : Int} {v : Value} (h : wholeBetween least most v = .ok n) :
    least ≤ n ∧ n ≤ most := by
  obtain ⟨m, hm, h⟩ := bind_eq_ok.mp h
  have hleast := wholeFrom_eq_ok hm
  split at h
  · cases h
  · obtain rfl := Except.ok.inj h
    omega

end Setting

namespace DatabaseSettings

theorem nameOf_eq_ok {v : Value} {name : String} (h : nameOf v = .ok name) :
    name ≠ "" ∧ Text.Trimmed name := by
  obtain ⟨s, -, h⟩ := bind_eq_ok.mp h
  split at h
  · cases h
  · rename_i hblank
    obtain rfl := Except.ok.inj h
    exact ⟨Text.stripped_ne_empty (by simpa using hblank), Text.trimmed_stripped s⟩

theorem bucketOf_eq_ok {v : Value} {name : String} (h : bucketOf v = .ok (some name)) :
    Text.isBlankText name = false := by
  obtain ⟨given, -, h⟩ := bind_eq_ok.mp h
  cases given with
  | none => cases h
  | some s =>
    simp only at h
    split at h
    · cases h
    · rename_i hblank
      obtain rfl := Option.some.inj (Except.ok.inj h)
      simpa using hblank

/-- The rules that the later steps rely on. -/
structure Sound (d : DatabaseSettings) : Prop where
  database_ne_empty : d.database ≠ ""
  database_trimmed : Text.Trimmed d.database
  bucket : ∀ name, d.bucket = some name → Text.isBlankText name = false
  chunkSize : ∀ n, d.chunkSize = some n → 1 ≤ n ∧ n ≤ 16777216
  timeout : 1 ≤ d.timeout

theorem sound_default : Sound {} where
  database_ne_empty := by decide
  database_trimmed := by
    refine ⟨fun c h => ?_, fun c h => ?_⟩
    · obtain rfl : 'p' = c := Option.some.inj h
      decide
    · obtain rfl : 's' = c := Option.some.inj h
      decide
  bucket _ h := nomatch h
  chunkSize _ h := nomatch h
  timeout := by decide

/-- Fields that have been read satisfy the rules, whatever they have been read from. -/
theorem ReadFrom.sound {given : String → Option Value} {d : DatabaseSettings} (h : d.ReadFrom given) :
    d.Sound where
  database_ne_empty :=
    h.database.of_taken (P := fun name => name ≠ "") sound_default.database_ne_empty
      fun _ hv => (nameOf_eq_ok hv).1
  database_trimmed := h.database.of_taken sound_default.database_trimmed fun _ hv => (nameOf_eq_ok hv).2
  bucket :=
    h.bucket.of_taken (P := fun bucket => ∀ name, bucket = some name → Text.isBlankText name = false)
      sound_default.bucket fun v hv _ hname => bucketOf_eq_ok (v := v) (hname ▸ hv)
  chunkSize :=
    h.chunkSize.of_taken (P := fun size => ∀ n, size = some n → 1 ≤ n ∧ n ≤ 16777216)
      sound_default.chunkSize
      fun v hv _ hn => Setting.wholeBetween_eq_ok (v := v) (Setting.orNull_eq_some (hn ▸ hv))
  timeout := h.timeout.of_taken sound_default.timeout fun _ hv => Setting.wholeFrom_eq_ok hv

end DatabaseSettings

/-- Accepted settings satisfy the rules, whatever is in the files and in the variables. -/
theorem SettingsSource.settings_sound {source : SettingsSource} {path : Option String} {settings : Settings}
    (h : source.settings path = .ok settings) : settings.database.Sound := by
  obtain ⟨es, layered, -, -, hchecked⟩ := settings_eq_ok.mp h
  rcases Settings.ofEntries_accepted hchecked with ⟨-, hdefault⟩ | ⟨kind, sub, -, haccepted⟩
  · rw [hdefault]
    exact DatabaseSettings.sound_default
  · exact (DatabaseSettings.ofEntries_accepted haccepted).sound

end FileDepot
