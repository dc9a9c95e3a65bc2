import FileDepot.Proofs.Store.Matching
import FileDepot.Proofs.Value.Stored
import FileDepot.Store.Bucket

/-!
# Filters with stored patterns

A record without patterns satisfies a filter regardless of the form in which the filter holds its patterns, and
a test that fails fails alike.

Contents:

* `contains_storedAs`, `Filter.conditionAccepts_storedAs` — one value tested;
* `Filter.accepts_storedAs` — a record tested;
* `StoredFile.document_patternFree` — the records of files.
-/

namespace FileDepot

/-! ## One value -/

theorem isAmong_storedAs {v : Value} (hv : v.PatternFree) {ws ws' : List Value} (h : ItemsStoredAs ws ws') :
    v.isAmong ws = v.isAmong ws' := by
  induction ws generalizing ws' with
  | nil =>
    cases h
    rfl
  | cons w ws ih =>
    cases h with
    | cons hw hws => rw [Value.isAmong, Value.isAmong, (equals_storedAs hv hw).2, ih hws]

/-- A value without patterns is a member regardless of the forms. -/
theorem contains_storedAs {v : Value} (hv : v.PatternFree) {c c' : Value} (h : StoredAs c c') :
    c.contains v = c'.contains v := by
  cases h with
  | same | pattern => rfl
  | list h => exact isAmong_storedAs hv h
  | @mapping es gs h =>
    have hkeys : es.map (·.1) = gs.map (·.1) := h.keys_eq
    rw [Value.contains, Value.contains, hkeys]

/-- The value of a key, or a default, is there in one of the forms. -/
theorem lookup_storedAs (key default : Value) {es gs : Entries} (h : EntriesStoredAs es gs) :
    StoredAs ((Entries.lookup? key es).getD default) ((Entries.lookup? key gs).getD default) := by
  induction es generalizing gs with
  | nil =>
    cases h
    exact .same default
  | cons e es ih =>
    obtain ⟨k, v⟩ := e
    cases h with
    | cons hv hs =>
      rw [Entries.lookup?, Entries.lookup?]
      split
      · exact hv
      · exact ih hs

theorem mem_of_lookup {key v : Value} {es : Entries} (h : Entries.lookup? key es = some v) :
    v ∈ es.map (·.2) := by
  induction es with
  | nil => cases h
  | cons e es ih =>
    obtain ⟨k, w⟩ := e
    rw [Entries.lookup?] at h
    split at h
    · obtain rfl := Option.some.inj h
      exact List.mem_cons_self
    · exact List.mem_cons_of_mem _ (ih h)

namespace Filter

variable (engine : Engine) {value : Value}

theorem regexAccepts_storedAs {operand operand' options options' : Value} (hoperand : StoredAs operand operand')
    (hoptions : StoredAs options options') :
    regexAccepts engine operand options value = regexAccepts engine operand' options' value := by
  have hi : (Value.text "i").PatternFree := .mk rfl (by simp [Value.parts])
  have hignore := contains_storedAs hi hoptions
  unfold regexAccepts
  cases value.text? with
  | none => rfl
  | some text =>
    cases hoperand with
    -- a pattern is searched for without options, what is no pattern is asked for them first
    | pattern hp =>
      show patternAnswer _ = storedSearches engine _ text
      rw [storedSearches, Pattern.searches_toStored engine hp]
    | same =>
      cases operand with
      | storedRegex r | pattern p => rfl
      | _ => simp only [hignore]
    | list h | mapping h => simp only [hignore]; rfl

/-- A value without patterns satisfies an operator regardless of the forms. -/
theorem operatorAccepts_storedAs (hvalue : value.PatternFree) {operand operand' options options' : Value}
    (hoperand : StoredAs operand operand') (hoptions : StoredAs options options') (name : String) :
    operatorAccepts engine options value name operand = operatorAccepts engine options' value name operand' := by
  have hpresent : (Value.bool (!value.isNull)).PatternFree := .mk rfl (by simp [Value.parts])
  unfold operatorAccepts
  rw [regexAccepts_storedAs engine hoperand hoptions, contains_storedAs hvalue hoperand,
    (equals_storedAs hvalue hoperand).1, (equals_storedAs hpresent hoperand).1]

theorem operatorsAccept_storedAs (hvalue : value.PatternFree) {options options' : Value}
    (hoptions : StoredAs options options') {es gs : Entries} (h : EntriesStoredAs es gs) :
    operatorsAccept engine options value es = operatorsAccept engine options' value gs := by
  induction es generalizing gs with
  | nil =>
    cases h
    rfl
  | cons e es ih =>
    cases h with
    | cons hv hs => rw [operatorsAccept, operatorsAccept, operatorAccepts_storedAs engine hvalue hv hoptions, ih hs]

/-- Whether a mapping holds operators is told by its keys. -/
theorem isOperatorDocument_storedAs {es gs : Entries} (h : EntriesStoredAs es gs) :
    isOperatorDocument es = isOperatorDocument gs := by
  have hdollar : isOperatorDocument.startWithDollar es = isOperatorDocument.startWithDollar gs := by
    induction es generalizing gs with
    | nil =>
      cases h
      rfl
    | cons e es ih =>
      cases h with
      | cons hv hs => rw [isOperatorDocument.startWithDollar, isOperatorDocument.startWithDollar, ih hs]
  rw [isOperatorDocument, isOperatorDocument, hdollar]
  cases h <;> rfl

/-- **A value without patterns satisfies a condition regardless of the forms.** -/
theorem conditionAccepts_storedAs (hvalue : value.PatternFree) {c c' : Value} (h : StoredAs c c') :
    conditionAccepts engine value c = conditionAccepts engine value c' := by
  cases h with
  | same => rfl
  | pattern hp =>
    unfold conditionAccepts
    cases value.text? with
    | none => rfl
    | some text =>
      show patternAnswer _ = storedSearches engine _ text
      rw [storedSearches, Pattern.searches_toStored engine hp]
  | list h => exact (equals_storedAs hvalue (.list h)).1
  | mapping h =>
    have hequals := (equals_storedAs hvalue (.mapping h)).1
    have hoptions := lookup_storedAs (.text "$options") (.text "") h
    have hoperators := operatorsAccept_storedAs engine hvalue hoptions h
    unfold conditionAccepts
    simp only [isOperatorDocument_storedAs h, hequals]
    rw [Entries.get?, Entries.get?, hoperators]

/-! ## One record -/

/-- Testing a record for the value, and for filters that it joins, is testing it for the other value. -/
def TestedAs (record c c' : Value) : Prop :=
  acceptsValue engine record c = acceptsValue engine record c' ∧
    anyAccepts engine record c = anyAccepts engine record c' ∧ allAccept engine record c = allAccept engine record c'

/-- What a record without patterns holds under a path has none. -/
theorem at_patternFree {record : Value} (h : record.PatternFree) (keys : List String) :
    (record.at keys).PatternFree := by
  induction keys generalizing record with
  | nil => exact h
  | cons key keys ih =>
    have hnull : Value.null.PatternFree := Value.patternFree_of_parts_eq_nil rfl rfl
    cases record with
    | map kind es =>
      rw [Value.at]
      split
      · exact hnull
      · cases hget : Entries.get? key es with
        | none => exact hnull
        | some v => exact ih (h.of_mem_parts (mem_of_lookup hget))
    | _ => exact hnull

theorem fieldOf_patternFree {record : Value} (h : record.PatternFree) {key v : Value}
    (hv : fieldOf record key = .ok v) : v.PatternFree := by
  unfold fieldOf at hv
  split at hv
  · obtain rfl := Except.ok.inj hv
    exact at_patternFree h _
  · split at hv <;> cases hv

/-- The entries of a filter are tested alike if the filters that their values join are. -/
theorem entries_testedAs {record : Value} (hrecord : record.PatternFree) {es gs : Entries}
    (ih : ∀ e ∈ es, ∀ c', StoredAs e.2 c' → TestedAs engine record e.2 c') (h : EntriesStoredAs es gs) :
    accepts engine record es = accepts engine record gs := by
  induction es generalizing gs with
  | nil =>
    cases h
    rfl
  | cons e es ihes =>
    cases h with
    | @cons k v w _ _ hv hs =>
      -- depending on the key, the value is a list of filters or a condition
      have hentry : entryAccepts engine record (k, v) = entryAccepts engine record (k, w) := by
        obtain ⟨-, hany, hall⟩ := ih _ List.mem_cons_self _ hv
        rw [entryAccepts, entryAccepts, hany, hall]
        cases hfield : fieldOf record k with
        | error failure => rfl
        | ok value =>
          have hcondition := conditionAccepts_storedAs engine (fieldOf_patternFree hrecord hfield) hv
          simp only [bind, Except.bind, hcondition]
      rw [accepts_cons, accepts_cons, hentry, ihes (fun e he => ih e (by simp [he])) hs]

/-- The filters of a list are tested alike if each is. -/
theorem items_testedAs {record : Value} {vs ws : List Value}
    (ih : ∀ v ∈ vs, ∀ c', StoredAs v c' → TestedAs engine record v c') (h : ItemsStoredAs vs ws) :
    anyOf engine record vs = anyOf engine record ws ∧ allOf engine record vs = allOf engine record ws := by
  induction vs generalizing ws with
  | nil =>
    cases h
    exact ⟨rfl, rfl⟩
  | cons v vs ihvs =>
    cases h with
    | cons hv hs =>
      obtain ⟨hany, hall⟩ := ihvs (fun v hv => ih v (by simp [hv])) hs
      have haccepts := (ih _ List.mem_cons_self _ hv).1
      rw [anyOf, anyOf, allOf, allOf, haccepts, hany, hall]
      exact ⟨rfl, rfl⟩

theorem testedAs {record : Value} (hrecord : record.PatternFree) (c c' : Value) (h : StoredAs c c') :
    TestedAs engine record c c' := by
  induction c using Value.induction_parts generalizing c' with
  | parts c ih =>
    cases h with
    | same => exact ⟨rfl, rfl, rfl⟩
    | pattern => exact ⟨rfl, rfl, rfl⟩
    | list h =>
      obtain ⟨hany, hall⟩ := items_testedAs engine ih h
      exact ⟨rfl, hany, hall⟩
    | mapping h =>
      exact ⟨entries_testedAs engine hrecord (fun e he => ih e.2 (List.mem_map_of_mem he)) h, rfl, rfl⟩

/-- **A record without patterns satisfies a filter regardless of the forms**, and a test that fails fails
alike. -/
theorem accepts_storedAs {record : Value} (hrecord : record.PatternFree) {es gs : Entries}
    (h : EntriesStoredAs es gs) : accepts engine record es = accepts engine record gs :=
  entries_testedAs engine hrecord (fun e _ c' => testedAs engine hrecord e.2 c') h

end Filter

/-! ## The records of files -/

/-- A file whose metadata holds no pattern has a record without patterns. -/
theorem StoredFile.document_patternFree {f : StoredFile} (h : f.metadata.PatternFree) :
    f.document.PatternFree := by
  refine .mk rfl fun u hu => ?_
  simp only [document, Value.document, Value.parts, List.map_cons, List.map_nil, List.mem_cons,
    List.not_mem_nil, or_false] at hu
  rcases hu with rfl | rfl | rfl | rfl | rfl | rfl | rfl
  all_goals first | exact h | exact Value.patternFree_of_parts_eq_nil rfl rfl

end FileDepot
