import FileDepot.Proofs.Query.Conjunction
import FileDepot.Proofs.Value.Parts

/-!
# Filters that are in their final form

A filter in the form that a store executes is such a form of itself: taking it to that form once more changes
nothing. Each of the functions that take a value to this form settles it by its position, and the result is read
from the same position again.

Contents:

* `Native.convert_convert`, `Native.mapM_settled` — single values, and lists of values that settle;
* `Native.fieldValue_of_items`, `Native.operandEntry_eq_ok`, `Native.filterEntries_joined_eq_ok` — one step of the
  recursion each;
* `Native.settles` — the values of fields and of operators;
* `Native.filterEntries_ofPairs` — entries that are settled make a settled filter, whatever keys repeat;
* `Native.filterSettles`, `Native.filter_settled` — whole filters, by the recursion that reads them.
-/

namespace FileDepot.Native

/-! ## Single values -/

/-- A value that is not taken apart is kept, or becomes a stored pattern or an identifier. -/
theorem convert_cases (underId : Bool) (v : Value) :
    convert underId v = v ∨ (∃ r, convert underId v = .storedRegex r) ∨
      ∃ i, convert underId v = .objectId i := by
  cases v with
  | pattern p => exact .inr (.inl ⟨_, rfl⟩)
  | text s | textMember s =>
    cases hid : if underId then ObjectId.ofText? s else none with
    | none =>
      left
      simp only [convert, hid]
    | some i =>
      refine .inr (.inr ⟨i, ?_⟩)
      simp only [convert, hid]
  | _ => exact .inl rfl

theorem convert_convert (underId : Bool) (v : Value) :
    convert underId (convert underId v) = convert underId v := by
  rcases convert_cases underId v with h | ⟨r, h⟩ | ⟨i, h⟩
  · rw [h, h]
  · rw [h]
    rfl
  · rw [h]
    rfl

/-! ## Lists of values -/

/-- Items each of which settles are settled together. -/
theorem mapM_settled {f : Value → Except Failure Value} {vs ws : List Value}
    (hf : ∀ v ∈ vs, ∀ w, f v = .ok w → f w = .ok w) (h : vs.mapM f = .ok ws) : ws.mapM f = .ok ws := by
  refine mapM_eq_self fun w hw => ?_
  obtain ⟨v, hv, hvw⟩ := exists_of_mem_mapM h hw
  exact hf v hv w hvw

theorem fieldItems_eq (underId : Bool) (vs : List Value) :
    fieldItems underId vs = vs.mapM (fieldValue underId) := by
  induction vs with
  | nil => rfl
  | cons v vs ih =>
    rw [fieldItems, List.mapM_cons, ih]
    rfl

theorem namedItems_eq (underId : Bool) (fs : List (String × Value)) :
    namedItems underId fs = (fs.map (·.2)).mapM (fieldValue underId) := by
  induction fs with
  | nil => rfl
  | cons f fs ih =>
    obtain ⟨name, v⟩ := f
    rw [namedItems, List.map_cons, List.mapM_cons, ih]
    rfl

/-! The items of a list, or of a tuple, are read one by one under a field. As the value of an operator they are
converted, and behind any other key the list is left alone. -/

theorem fieldValue_of_items {v : Value} {vs : List Value} (h : v.items? = some vs) (underId : Bool) :
    fieldValue underId v = (vs.mapM (fieldValue underId)).map .list := by
  cases v with
  | list xs | tuple xs =>
    obtain rfl := Option.some.inj h
    rw [fieldValue, fieldItems_eq]
  | namedTuple fs =>
    obtain rfl := Option.some.inj h
    rw [fieldValue, namedItems_eq]
  | _ => cases h

theorem operand_of_items {v : Value} {vs : List Value} (h : v.items? = some vs) (underId dollar : Bool) :
    operand underId dollar v = .ok (if dollar then operandItems underId vs else v) := by
  cases v with
  | list xs | tuple xs | namedTuple fs =>
    obtain rfl := Option.some.inj h
    rfl
  | _ => cases h

/-- One entry of an operator document. -/
def operandEntry (underId : Bool) (e : Value × Value) : Except Failure (Value × Value) := do
  let dollar ← isOperator e.1
  (operand underId dollar e.2).map fun w => (e.1, w)

theorem operands_eq (underId : Bool) (es : Entries) :
    operands underId es = es.mapM (operandEntry underId) := by
  induction es with
  | nil => rfl
  | cons e es ih =>
    obtain ⟨k, v⟩ := e
    rw [operands, List.mapM_cons, operandEntry, ih]
    cases isOperator k with
    | error f => rfl
    | ok dollar =>
      show (operand underId dollar v >>= _) = ((operand underId dollar v).map _ >>= _)
      cases operand underId dollar v <;> rfl

theorem operandEntry_eq_ok {underId : Bool} {e g : Value × Value} :
    operandEntry underId e = .ok g ↔
      g.1 = e.1 ∧ ∃ dollar, isOperator e.1 = .ok dollar ∧ operand underId dollar e.2 = .ok g.2 := by
  rw [operandEntry, bind_eq_ok]
  constructor
  · rintro ⟨dollar, hdollar, h⟩
    obtain ⟨w, hw, rfl⟩ := map_eq_ok.mp h
    exact ⟨rfl, dollar, hdollar, hw⟩
  · rintro ⟨hkey, dollar, hdollar, hw⟩
    refine ⟨dollar, hdollar, map_eq_ok.mpr ⟨g.2, hw, ?_⟩⟩
    rw [← hkey]

/-! ## Values of fields -/

/-- As the value of a field, and as the value of an operator or of another key, the value becomes one that stays
as it is in the same place. -/
def Settles (v : Value) : Prop :=
  ∀ underId, (∀ w, fieldValue underId v = .ok w → fieldValue underId w = .ok w) ∧
    ∀ dollar w, operand underId dollar v = .ok w → operand underId dollar w = .ok w

/-- Operator documents settle if their values do. -/
theorem operands_settled {underId : Bool} {es gs : Entries} (hes : ∀ e ∈ es, Settles e.2)
    (h : operands underId es = .ok gs) : operands underId gs = .ok gs := by
  rw [operands_eq] at h ⊢
  refine mapM_eq_self fun g hg => ?_
  obtain ⟨e, he, heg⟩ := exists_of_mem_mapM h hg
  obtain ⟨hkey, dollar, hdollar, hw⟩ := operandEntry_eq_ok.mp heg
  refine operandEntry_eq_ok.mpr ⟨rfl, dollar, ?_, (hes e he underId).2 dollar g.2 hw⟩
  rw [hkey, hdollar]

theorem operandItems_settled (underId : Bool) (vs : List Value) :
    operand underId true (operandItems underId vs) = .ok (operandItems underId vs) := by
  show Except.ok (operandItems underId (vs.map (convert underId))) = _
  simp only [operandItems, List.map_map, Function.comp_def, convert_convert]

/-- A list, or a tuple, settles if its items do. -/
theorem settles_of_items {v : Value} {vs : List Value} (hitems : v.items? = some vs) (hvs : ∀ u ∈ vs, Settles u) :
    Settles v := by
  intro underId
  constructor
  · intro w hw
    rw [fieldValue_of_items hitems] at hw
    obtain ⟨ws, hws, rfl⟩ := map_eq_ok.mp hw
    have hagain := mapM_settled (fun u hu => (hvs u hu underId).1) hws
    rw [fieldValue, fieldItems_eq, hagain]
    rfl
  · intro dollar w hw
    rw [operand_of_items hitems] at hw
    obtain rfl := Except.ok.inj hw
    cases dollar with
    | true => exact operandItems_settled underId vs
    | false => exact operand_of_items hitems underId false

/-- A value that is converted as a whole settles. -/
theorem settles_of_convert {v : Value} (hfield : ∀ underId, fieldValue underId v = .ok (convert underId v))
    (hoperand : ∀ underId dollar, operand underId dollar v = .ok (convert underId v)) : Settles v := by
  intro underId
  constructor
  · intro w hw
    obtain rfl := Except.ok.inj ((hfield underId).symm.trans hw)
    rcases convert_cases underId v with h | ⟨r, h⟩ | ⟨i, h⟩
    · rw [h, hfield, h]
    · rw [h]
      rfl
    · rw [h]
      rfl
  · intro dollar w hw
    obtain rfl := Except.ok.inj ((hoperand underId dollar).symm.trans hw)
    rcases convert_cases underId v with h | ⟨r, h⟩ | ⟨i, h⟩
    · rw [h, hoperand, h]
    · rw [h]
      rfl
    · rw [h]
      rfl

/-- **The values of fields and of operators settle.** -/
theorem settles (v : Value) : Settles v := by
  induction v using Value.induction_parts with
  | parts v ih =>
    cases v with
    | map kind es =>
      have hes : ∀ e ∈ es, Settles e.2 := fun e he => ih e.2 (List.mem_map_of_mem he)
      have document {underId : Bool} {w : Value} (h : (operands underId es).map .document = .ok w) :
          ∃ gs, operands underId gs = .ok gs ∧ w = .document gs := by
        obtain ⟨gs, hgs, rfl⟩ := map_eq_ok.mp h
        exact ⟨gs, operands_settled hes hgs, rfl⟩
      intro underId
      constructor
      · intro w hw
        obtain ⟨gs, hgs, rfl⟩ := document hw
        exact map_eq_ok.mpr ⟨gs, hgs, rfl⟩
      · intro dollar w hw
        obtain ⟨gs, hgs, rfl⟩ := document hw
        exact map_eq_ok.mpr ⟨gs, hgs, rfl⟩
    | list vs | tuple vs | namedTuple fs => exact settles_of_items rfl ih
    | _ => exact settles_of_convert (fun _ => rfl) fun _ _ => rfl

/-! ## Entries of filters -/

/-- The value of an entry of a filter, in the form that a store executes. -/
def entryValue (k v : Value) : Except Failure Value :=
  if isLogical k then (joinedFilters v).map .list else fieldValue (isIdKey k) v

theorem filterEntry_eq_ok {e g : Value × Value} :
    filterEntry e = .ok g ↔ g.1 = fieldName e.1 ∧ entryValue e.1 e.2 = .ok g.2 := by
  obtain ⟨k, v⟩ := e
  unfold filterEntry entryValue
  by_cases hlogical : isLogical k = true
  · have hname : fieldName k = k := by rw [fieldName, isIdKey_of_isLogical hlogical]; rfl
    simp only [hlogical, if_true, hname, map_eq_ok]
    constructor
    · rintro ⟨joined, hjoined, rfl⟩
      exact ⟨rfl, joined, hjoined, rfl⟩
    · rintro ⟨hkey, joined, hjoined, hvalue⟩
      exact ⟨joined, hjoined, Prod.ext hkey.symm hvalue⟩
  · simp only [hlogical, Bool.false_eq_true, if_false, map_eq_ok]
    constructor
    · rintro ⟨w, hw, rfl⟩
      exact ⟨rfl, hw⟩
    · rintro ⟨hkey, hw⟩
      exact ⟨g.2, hw, Prod.ext hkey.symm rfl⟩

/-- Of the key of an entry only its text counts for the value. -/
theorem entryValue_congr {k k' : Value} (h : k.text? = k'.text?) (v : Value) :
    entryValue k v = entryValue k' v := by
  unfold entryValue isLogical isIdKey
  rw [h]

/-- **Settled entries make a settled filter.** Where keys repeat, a value gets a key that is equal to its own. -/
theorem filterEntries_ofPairs {gs : Entries} (h : ∀ g ∈ gs, filterEntry g = .ok g) :
    filterEntries (Entries.ofPairs gs) = .ok (Entries.ofPairs gs) := by
  rw [filterEntries_eq]
  refine mapM_eq_self fun e he => ?_
  obtain ⟨first, hfirst, hkey⟩ := (Entries.mem_ofPairs he).1
  obtain ⟨last, hlast, hvalue, hequal⟩ := Entries.exists_of_mem_ofPairs he
  have htext : e.1.text? = last.1.text? := by
    rcases hequal with hequal | hequal
    · rw [hequal]
    · exact Value.text?_of_same hequal
  have hname : first.1 = fieldName first.1 := (filterEntry_eq_ok.mp (h first hfirst)).1
  have hsettled : entryValue last.1 last.2 = .ok last.2 := (filterEntry_eq_ok.mp (h last hlast)).2
  refine filterEntry_eq_ok.mpr ⟨?_, ?_⟩
  · rw [← hkey]
    exact hname
  · rw [entryValue_congr htext, ← hvalue]
    exact hsettled

theorem isLogical_fieldName (k : Value) : isLogical (fieldName k) = isLogical k := by
  unfold fieldName
  split
  · next hid =>
    cases hlogical : isLogical k with
    | true => simp [isIdKey_of_isLogical hlogical] at hid
    | false => rfl
  · rfl

/-! ## One step of the recursion over filters -/

/-- What is no mapping is a filter only if it is nothing at all. -/
theorem filter_of_ne {v : Value} (hv : ∀ kind es, v = .map kind es → False) : filter v = emptyFilter v := by
  rw [filter]
  exact hv

theorem filterEntries_joined_eq_ok {k v : Value} {es gs : Entries} (hlogical : isLogical k = true)
    (h : filterEntries ((k, v) :: es) = .ok gs) :
    ∃ joined rest, joinedFilters v = .ok joined ∧ filterEntries es = .ok rest ∧ gs = (k, .list joined) :: rest := by
  rw [filterEntries, if_pos hlogical] at h
  obtain ⟨joined, hjoined, h⟩ := bind_eq_ok.mp h
  obtain ⟨rest, hrest, h⟩ := bind_eq_ok.mp h
  exact ⟨joined, rest, hjoined, hrest, (Except.ok.inj h).symm⟩

theorem filterEntries_field_eq_ok {k v : Value} {es gs : Entries} (hlogical : ¬ isLogical k = true)
    (h : filterEntries ((k, v) :: es) = .ok gs) :
    ∃ w rest, fieldValue (isIdKey k) v = .ok w ∧ filterEntries es = .ok rest ∧ gs = (fieldName k, w) :: rest := by
  rw [filterEntries, if_neg hlogical] at h
  obtain ⟨w, hw, h⟩ := bind_eq_ok.mp h
  obtain ⟨rest, hrest, h⟩ := bind_eq_ok.mp h
  exact ⟨w, rest, hw, hrest, (Except.ok.inj h).symm⟩

/-- A filter in front of others is read first. -/
theorem filters_cons_eq_ok {v : Value} {others : Except Failure (List Value)} {ws : List Value}
    (h : (do let es ← filter v; let ws ← others; .ok (.document es :: ws)) = Except.ok ws) :
    ∃ es rest, filter v = .ok es ∧ others = .ok rest ∧ ws = .document es :: rest := by
  obtain ⟨es, hes, h⟩ := bind_eq_ok.mp h
  obtain ⟨rest, hrest, h⟩ := bind_eq_ok.mp h
  exact ⟨es, rest, hes, hrest, (Except.ok.inj h).symm⟩

/-! ## Filters that are joined -/

/-- Taken to the form that a store executes, the value becomes a filter that is settled. -/
def FilterSettles (v : Value) : Prop :=
  ∀ es, filter v = .ok es → filter (.document es) = .ok es

/-- The value is a filter that is settled. -/
def IsSettled (w : Value) : Prop :=
  ∃ es, w = .document es ∧ filter (.document es) = .ok es

/-- The filters that a value is read as are settled. -/
def GivesSettled {α : Type} (read : α → Except Failure (List Value)) (x : α) : Prop :=
  ∀ ws, read x = .ok ws → ∀ w ∈ ws, IsSettled w

theorem filters_settled {ws : List Value} (h : ∀ w ∈ ws, IsSettled w) : filters ws = .ok ws := by
  induction ws with
  | nil => rfl
  | cons w ws ih =>
    obtain ⟨hw, hws⟩ := List.forall_mem_cons.mp h
    obtain ⟨es, rfl, hes⟩ := hw
    rw [filters, hes, ih hws]
    rfl

theorem settled_of_none {ws : List Value} (h : (.ok [] : Except Failure (List Value)) = .ok ws) :
    ∀ w ∈ ws, IsSettled w := by
  obtain rfl := Except.ok.inj h
  simp

/-- One more filter in front of others. -/
theorem givesSettled_cons {v : Value} {others : Except Failure (List Value)} (hv : FilterSettles v)
    (hothers : ∀ ws, others = .ok ws → ∀ w ∈ ws, IsSettled w) {ws : List Value}
    (h : (do let es ← filter v; let ws ← others; .ok (.document es :: ws)) = Except.ok ws) :
    ∀ w ∈ ws, IsSettled w := by
  obtain ⟨es, rest, hes, hrest, rfl⟩ := filters_cons_eq_ok h
  exact List.forall_mem_cons.mpr ⟨⟨es, rfl, hv es hes⟩, hothers rest hrest⟩

/-- What is no mapping is the empty filter, if it is one at all. -/
theorem emptyFilter_eq_ok {v : Value} {es : Entries} (h : emptyFilter v = .ok es) : es = [] := by
  unfold emptyFilter at h
  split at h
  · cases h
  · exact (Except.ok.inj h).symm

theorem emptyFilters_settled {vs ws : List Value} (h : emptyFilters vs = .ok ws) : ∀ w ∈ ws, IsSettled w := by
  intro w hw
  obtain ⟨v, -, hv⟩ := exists_of_mem_mapM h hw
  obtain ⟨es, hes, rfl⟩ := map_eq_ok.mp hv
  obtain rfl := emptyFilter_eq_ok hes
  exact ⟨[], rfl, rfl⟩

/-- Of the elements of what is none of the collections only those that are nothing at all are filters. -/
theorem givesSettled_elements {v : Value} (h : joinedFilters v = v.elements.bind emptyFilters) :
    GivesSettled joinedFilters v := by
  intro ws hws
  rw [h] at hws
  obtain ⟨vs, -, hvs⟩ := bind_eq_ok.mp hws
  exact emptyFilters_settled hvs

theorem filterSettles_of_ne {v : Value} (hv : ∀ kind es, v = .map kind es → False) : FilterSettles v := by
  intro es h
  obtain rfl := emptyFilter_eq_ok (filter_of_ne hv ▸ h)
  rfl

/-! ## Entries one after another -/

/-- The entries of a filter become settled entries. -/
def EntriesSettle (es : Entries) : Prop :=
  ∀ gs, filterEntries es = .ok gs → ∀ g ∈ gs, filterEntry g = .ok g

theorem filterSettles_of_entries {es : Entries} (hes : EntriesSettle es) (kind : MapKind) :
    FilterSettles (.map kind es) := by
  intro _ h
  obtain ⟨gs, hgs, rfl⟩ := map_eq_ok.mp h
  show (filterEntries _).map _ = _
  rw [filterEntries_ofPairs (hes gs hgs)]
  exact congrArg Except.ok (Entries.ofPairs_eq_self (Entries.distinct_ofPairs gs))

/-- The entry of a key that joins filters is settled if these are. -/
theorem filterEntry_joined {k : Value} (hlogical : isLogical k = true) {joined : List Value}
    (h : ∀ w ∈ joined, IsSettled w) : filterEntry (k, .list joined) = .ok (k, .list joined) := by
  have hagain : joinedFilters (.list joined) = .ok joined := filters_settled h
  simp only [filterEntry, hlogical, if_true, hagain]
  rfl

/-- The entry of a field is settled, since its value is. -/
theorem filterEntry_field {k v w : Value} (hlogical : ¬ isLogical k = true)
    (hw : fieldValue (isIdKey k) v = .ok w) : filterEntry (fieldName k, w) = .ok (fieldName k, w) := by
  refine filterEntry_eq_ok.mpr ⟨?_, ?_⟩
  · unfold fieldName
    split <;> rfl
  · show entryValue (fieldName k) w = .ok w
    rw [entryValue, isLogical_fieldName, if_neg hlogical, isIdKey_fieldName]
    exact (settles v (isIdKey k)).1 w hw

theorem entriesSettle_joined {k v : Value} {es : Entries} (hlogical : isLogical k = true)
    (hv : GivesSettled joinedFilters v) (hes : EntriesSettle es) : EntriesSettle ((k, v) :: es) := by
  intro gs hgs
  obtain ⟨joined, rest, hjoined, hrest, rfl⟩ := filterEntries_joined_eq_ok hlogical hgs
  exact List.forall_mem_cons.mpr ⟨filterEntry_joined hlogical (hv joined hjoined), hes rest hrest⟩

theorem entriesSettle_field {k v : Value} {es : Entries} (hlogical : ¬ isLogical k = true)
    (hes : EntriesSettle es) : EntriesSettle ((k, v) :: es) := by
  intro gs hgs
  obtain ⟨w, rest, hw, hrest, rfl⟩ := filterEntries_field_eq_ok hlogical hgs
  exact List.forall_mem_cons.mpr ⟨filterEntry_field hlogical hw, hes rest hrest⟩

/-! ## Whole filters -/

/-- Filters, their entries and the filters that they join settle together, each by the recursion that reads
    them. -/
theorem filterSettles (v : Value) : FilterSettles v := by
  apply filter.induct FilterSettles EntriesSettle (GivesSettled joinedFilters) (GivesSettled keyFilters)
    (GivesSettled namedFilters) (GivesSettled filters)
  · exact fun kind es hes => filterSettles_of_entries hes kind
  · exact fun v hv => filterSettles_of_ne hv
  -- under a key that joins filters: a list, a tuple, a set, the places of a tuple, the keys of a mapping
  · exact fun xs hxs => hxs
  · exact fun xs hxs => hxs
  · exact fun fixed xs hxs => hxs
  · exact fun fs hfs => hfs
  · exact fun kind es hes => hes
  · intro v hlist htuple hset hnamed hmap
    apply givesSettled_elements
    rw [joinedFilters] <;> assumption
  -- filters one after another, of a list and of the places of a tuple
  · exact fun ws hws => settled_of_none hws
  · exact fun v vs hv hvs ws hws => givesSettled_cons hv hvs hws
  · exact fun ws hws => settled_of_none hws
  · exact fun name v fs hv hfs ws hws => givesSettled_cons hv hfs hws
  -- entries one after another
  · intro gs hgs
    obtain rfl := Except.ok.inj hgs
    simp
  · exact fun k v es hlogical hv hes => entriesSettle_joined hlogical hv hes
  · exact fun k v es hlogical hes => entriesSettle_field hlogical hes
  -- filters that are the keys of a mapping
  · exact fun ws hws => settled_of_none hws
  · exact fun k v es hk hes ws hws => givesSettled_cons hk hes hws

/-- **A filter in the form that a store executes is that form of itself**, whatever it has been made of. -/
theorem filter_settled {v : Value} {es : Entries} (h : filter v = .ok es) :
    filter (.document es) = .ok es :=
  filterSettles v es h

/-- Both names of the identifier, one after the other, meet in one entry; a tuple under an operator becomes a list,
and one inside an embedded document stays. -/
theorem filter_settled_of_both_names :
    let digits := "0123456789abcdefABCDEF00"
    let i : ObjectId := ⟨0x0123456789abcdefabcdef00⟩
    let p := Pattern.compile (.text "^a") 0
    let es : Entries := [(.text "id", .text digits),
      (.text "$or", .tuple [.null, .map .ordered [(.text "id", .map .view [(.text "$in", .tuple [.text digits])])]]),
      (.text "k", .tuple [.pattern p, .map .plain [(.text "a", .tuple [.text digits])]]),
      (.text "_id", .map .plain [(.text "$ne", .text digits)])]
    let gs : Entries := [(.text "_id", .document [(.text "$ne", .objectId i)]),
      (.text "$or", .list [.document [], .document [(.text "_id", .document [(.text "$in", .list [.objectId i])])]]),
      (.text "k", .list [.storedRegex p.toStored, .document [(.text "a", .tuple [.text digits])]])]
    filter (.map .view es) = .ok gs ∧ filter (.document gs) = .ok gs := by
  intro digits i p es gs
  have hdigits : ObjectId.ofText? digits = some i := by decide +kernel
  have hfilter : filter (.map .view es) = .ok gs := by
    simp [es, gs, filter, filterEntries, joinedFilters, filters, emptyFilter, fieldValue, fieldItems, operands,
      operand, operandItems, convert, isLogical, isIdKey, fieldName, isOperator, Value.text?, hdigits,
      Value.truthy, Except.map, bind, Except.bind, Entries.ofPairs, Entries.put, Value.same]
  exact ⟨hfilter, filter_settled hfilter⟩

end FileDepot.Native
