import FileDepot.Logging.Draft
import FileDepot.Proofs.Value.Entries

/-!
# Guarded configurations

A configuration in use changes with every part that is looked at, and a reference may lead to any part from
anywhere. What no reference leads to is the configuration itself. So its own entries stay what they are, and those
that are no references can be taken into use at any time.

Contents:

* `Item.Inner` — an item that does not stand for the configuration itself;
* `Value.Firm`, `Item.Firm` — what can be taken into use, whatever else the configuration says;
* `Draft.Guarded` — the invariant;
* `Guarded.put`, `Guarded.put_top`, `Guarded.erase`, `Guarded.push`, `Guarded.withRows` — the changes of a draft that
  keep it;
* `Draft.guarded_ofEntries` — the drafts that have it at first.
-/

namespace FileDepot

/-! ## Items -/

/-- The item does not stand for the configuration itself. -/
def Item.Inner (i : Item) : Prop :=
  ∀ a, i.entries? = some a → a.number ≠ Draft.topNumber

theorem Item.inner_of_entries?_eq_none {i : Item} (h : i.entries? = none) : i.Inner := by
  intro a ha
  rw [h] at ha
  cases ha

theorem Item.inner_plain (v : Value) : (Item.plain v).Inner :=
  inner_of_entries?_eq_none rfl

theorem Item.inner_of_number {n : Nat} (h : n ≠ Draft.topNumber) :
    (Item.table n).Inner ∧ (Item.seen n).Inner ∧ (Item.view n).Inner := by
  refine ⟨?_, ?_, ?_⟩ <;>
  · intro a ha
    obtain rfl := Option.some.inj ha
    exact h

theorem Item.Inner.number {i : Item} (h : i.Inner) {n : Nat} (hi : i = .table n ∨ i = .seen n ∨ i = .view n) :
    n ≠ Draft.topNumber := by
  rcases hi with rfl | rfl | rfl
  · exact h ⟨n, true⟩ rfl
  · exact h ⟨n, false⟩ rfl
  · exact h ⟨n, false⟩ rfl

/-- What can be changed are entries. -/
theorem Item.entries?_of_changeable? {i : Item} {a : Access} (h : i.changeable? = some a) : i.entries? = some a := by
  cases i with
  | table n | seen n => exact h
  | _ => cases h

/-- The value can be taken into use whatever else a configuration says: it is no reference. What it yields are keys
as `K` says. -/
def Value.Firm (K : Value → Prop) : Value → Prop
  | .map _ es => ∀ e ∈ es, K e.1
  | .list _ | .tuple _ => False
  | v => v.text?.bind Reference.ofText? = none ∧ ∀ vs, v.elements? = some vs → ∀ w ∈ vs, K w

/-- The item can be taken into use whatever else a configuration says. -/
def Item.Firm (K : Value → Prop) (d : Draft) : Item → Prop
  | .plain v => v.Firm K
  | .table n | .seen n | .view n => n ≠ Draft.topNumber ∧ n < d.tables.size ∧ ∀ e ∈ d.entries n, K e.1
  | _ => False

theorem Value.Firm.imp {K K' : Value → Prop} {v : Value} (h : v.Firm K) (hK : ∀ v, K v → K' v) : v.Firm K' := by
  cases v with
  | map kind es => exact fun e he => hK e.1 (h e he)
  | list vs => exact h.elim
  | tuple vs => exact h.elim
  | _ => exact ⟨h.1, fun vs hvs w hw => hK w (h.2 vs hvs w hw)⟩

theorem Item.Firm.imp {K K' : Value → Prop} {d : Draft} {i : Item} (h : i.Firm K d) (hK : ∀ v, K v → K' v) :
    i.Firm K' d := by
  cases i with
  | plain v => exact Value.Firm.imp h hK
  | table n | seen n | view n => exact ⟨h.1, h.2.1, fun e he => hK e.1 (h.2.2 e he)⟩
  | _ => exact h.elim

theorem Value.Firm.elements {K : Value → Prop} {v : Value} (h : v.Firm K) {vs : List Value}
    (hvs : v.elements? = some vs) : ∀ w ∈ vs, K w := by
  cases v with
  | map kind es =>
    obtain rfl := Option.some.inj hvs
    intro w hw
    obtain ⟨e, he, rfl⟩ := List.mem_map.mp hw
    exact h e he
  | list vs => exact h.elim
  | tuple vs => exact h.elim
  | _ => exact h.2 vs hvs

/-- Changed tables and rows leave an item that can be taken into use, if no table gets other keys. -/
theorem Item.Firm.mono {K : Value → Prop} {d d' : Draft} {i : Item} (h : i.Firm K d)
    (hsize : d.tables.size ≤ d'.tables.size)
    (hkeys : ∀ n, n ≠ Draft.topNumber → n < d.tables.size → (∀ e ∈ d.entries n, K e.1) → ∀ e ∈ d'.entries n, K e.1) :
    i.Firm K d' := by
  cases i with
  | table n | seen n | view n => exact ⟨h.1, Nat.lt_of_lt_of_le h.2.1 hsize, hkeys n h.1 h.2.1 h.2.2⟩
  | _ => exact h

namespace Draft

/-! ## The invariant -/

/-- The names of the entries of a configuration that are looked at from outside of its sections. -/
def firmNames : List String :=
  ["version", "disable_existing_loggers", "incremental", "formatters", "filters", "handlers", "loggers", "root"]

/-- No item leads to the configuration itself, whose own entries can be taken into use. -/
structure Guarded (K : Value → Prop) (d : Draft) : Prop where
  top : topNumber < d.tables.size
  tables : ∀ n, ∀ e ∈ d.entries n, e.2.Inner
  rows : ∀ n, ∀ i ∈ d.items n, i.Inner
  firm : ∀ name ∈ firmNames, ∀ i, d.find? topNumber (.text name) = some i → i.Firm K d

theorem Guarded.mono {K K' : Value → Prop} {d : Draft} (h : d.Guarded K) (hK : ∀ v, K v → K' v) : d.Guarded K' :=
  ⟨h.top, h.tables, h.rows, fun name hname i hfind => (h.firm name hname i hfind).imp hK⟩

theorem entries_withEntries (d : Draft) (m n : Nat) (es : TableEntries) :
    (d.withEntries m es).entries n = if m = n ∧ n < d.tables.size then es else d.entries n := by
  unfold entries withEntries
  simp only [Array.getElem?_modify]
  by_cases hn : n < d.tables.size
  · by_cases hm : m = n <;> simp [hm, hn]
  · by_cases hm : m = n <;> simp [hm, hn]

theorem entries_push (d : Draft) (es : TableEntries) (n : Nat) :
    ({ d with tables := d.tables.push es } : Draft).entries n =
      if n = d.tables.size then es else d.entries n := by
  unfold entries
  simp only [Array.getElem?_push]
  split <;> rfl

theorem mem_putIn {key : Value} {i : Item} {es : TableEntries} {e : Value × Item} (h : e ∈ putIn key i es) :
    e ∈ es ∨ e.2 = i ∧ (e.1 = key ∨ ∃ e' ∈ es, e'.1 = e.1) := by
  unfold putIn at h
  split at h
  · obtain ⟨e', he', rfl⟩ := List.mem_map.mp h
    split
    · exact .inr ⟨rfl, .inr ⟨e', he', rfl⟩⟩
    · exact .inl he'
  · rcases List.mem_append.mp h with he | he
    · exact .inl he
    · obtain rfl := List.mem_singleton.mp he
      exact .inr ⟨rfl, .inl rfl⟩

theorem find?_eq_some {d : Draft} {n : Nat} {key : Value} {i : Item} (h : d.find? n key = some i) :
    ∃ e ∈ d.entries n, e.2 = i := by
  obtain ⟨e, he, rfl⟩ := Option.map_eq_some_iff.mp h
  exact ⟨e, List.mem_of_find?_eq_some he, rfl⟩

/-- Putting an item under a text changes what this text leads to, and nothing else. -/
theorem find?_putIn (key name : String) (i : Item) (es : TableEntries) :
    ((putIn (.text key) i es).find? fun e => e.1.same (.text name)).map (·.2) =
      if key = name then some i else (es.find? fun e => e.1.same (.text name)).map (·.2) := by
  unfold putIn
  simp only [Value.same_text]
  by_cases hany : (es.any fun e => e.1.text? == some key) = true
  · rw [if_pos hany, List.find?_map]
    have hkeys : ((fun e : Value × Item => e.1.text? == some name) ∘ fun e =>
        if (e.1.text? == some key) = true then (e.1, i) else e) = fun e => e.1.text? == some name := by
      funext e
      simp only [Function.comp_apply]
      split <;> rfl
    rw [hkeys]
    cases hfind : es.find? fun e => e.1.text? == some name with
    | none =>
      have hname : key ≠ name := by
        rintro rfl
        obtain ⟨e, he, hkey⟩ := List.any_eq_true.mp hany
        exact List.find?_eq_none.mp hfind e he hkey
      rw [if_neg hname]
      rfl
    | some e =>
      have he : e.1.text? = some name := by simpa using List.find?_some hfind
      by_cases hname : key = name
      · simp [he, hname]
      · simp [he, hname, Ne.symm hname]
  · rw [if_neg hany, List.find?_append]
    have hnone : ∀ e ∈ es, e.1.text? ≠ some key := by simpa using hany
    by_cases hname : key = name
    · subst hname
      have hfind : (es.find? fun e => e.1.text? == some key) = none :=
        List.find?_eq_none.mpr fun e he => by simpa using hnone e he
      rw [hfind, if_pos rfl, Option.none_or, List.find?_singleton]
      simp [Value.text?]
    · rw [if_neg hname, List.find?_singleton]
      simp [Value.text?, hname]

/-- What a text leads to after the entries under a text have been taken out, it has led to before. -/
theorem find?_of_filter {key name : String} {es : TableEntries} {i : Item}
    (h : ((es.filter fun e => !e.1.same (.text key)).find? fun e => e.1.same (.text name)).map (·.2) = some i) :
    (es.find? fun e => e.1.same (.text name)).map (·.2) = some i := by
  rw [List.find?_filter] at h
  simp only [Value.same_text] at h ⊢
  by_cases hname : key = name
  · subst hname
    rw [List.find?_eq_none.mpr fun e _ => by simp] at h
    cases h
  · have hkept : ∀ e : Value × Item, decide ((!(e.1.text? == some key)) = true ∧ (e.1.text? == some name) = true) =
        (e.1.text? == some name) := by
      intro e
      by_cases he : e.1.text? = some name
      · simp [he, Ne.symm hname]
      · simp [he]
    rwa [funext hkept] at h

variable {K : Value → Prop} {d : Draft}

theorem Guarded.find? (h : d.Guarded K) {n : Nat} {key : Value} {i : Item} (hfind : d.find? n key = some i) :
    i.Inner := by
  obtain ⟨e, he, rfl⟩ := find?_eq_some hfind
  exact h.tables n e he

theorem size_put (d : Draft) (n : Nat) (key : Value) (i : Item) : (d.put n key i).tables.size = d.tables.size :=
  Array.size_modify

theorem entries_put (d : Draft) {m n : Nat} (hmn : m ≠ n) (key : Value) (i : Item) :
    (d.put n key i).entries m = d.entries m := by
  unfold Draft.put
  rw [entries_withEntries, if_neg fun h => hmn h.1.symm]

theorem mem_entries_put {n : Nat} {key : Value} {i : Item} {e : Value × Item} (he : e ∈ (d.put n key i).entries n) :
    e ∈ d.entries n ∨ e.2 = i ∧ (e.1 = key ∨ ∃ e' ∈ d.entries n, e'.1 = e.1) := by
  unfold Draft.put at he
  rw [entries_withEntries] at he
  split at he
  · exact mem_putIn he
  · exact .inl he

theorem firm_put_top {i : Item} (h : i.Firm K d) (key : Value) (j : Item) : i.Firm K (d.put topNumber key j) := by
  refine h.mono (Nat.le_of_eq (size_put d topNumber key j).symm) ?_
  intro n hn _ hkeys e he
  rw [entries_put d hn] at he
  exact hkeys e he

/-- An item that is put somewhere is all that comes to the tables. -/
theorem Guarded.tables_put (h : d.Guarded K) (n : Nat) (key : Value) {i : Item} (hi : i.Inner) :
    ∀ m, ∀ e ∈ (d.put n key i).entries m, e.2.Inner := by
  intro m e he
  by_cases hm : m = n
  · subst hm
    rcases mem_entries_put he with he | ⟨hitem, -⟩
    · exact h.tables m e he
    · exact hitem ▸ hi
  · exact h.tables m e (entries_put d hm key i ▸ he)

/-- An entry of a table other than the configuration itself may change. -/
theorem Guarded.put (h : d.Guarded K) {n : Nat} (hn : n ≠ topNumber) {key : Value} (hkey : K key) {i : Item}
    (hi : i.Inner) : (d.put n key i).Guarded K where
  top := (size_put d n key i).symm ▸ h.top
  tables := h.tables_put n key hi
  rows := h.rows
  firm := by
    intro name hname i' hfind
    -- the entry is the same as before, and a table that it may stand for gets no keys but the new one
    unfold Draft.find? at hfind
    rw [entries_put d hn.symm] at hfind
    refine (h.firm name hname i' hfind).mono (Nat.le_of_eq (size_put d n key i).symm) ?_
    intro m _ _ hm e he
    by_cases hmn : m = n
    · subst hmn
      rcases mem_entries_put he with he | ⟨-, hsame | ⟨e', he', hsame⟩⟩
      · exact hm e he
      · exact hsame ▸ hkey
      · exact hsame ▸ hm e' he'
    · exact hm e (entries_put d hmn key i ▸ he)

/-- An entry of the configuration itself may change to an item that can be taken into use. -/
theorem Guarded.put_top (h : d.Guarded K) {key : String} {i : Item} (hi : i.Inner)
    (hfirm : key ∈ firmNames → i.Firm K d) : (d.put topNumber (.text key) i).Guarded K where
  top := (size_put d topNumber (.text key) i).symm ▸ h.top
  tables := h.tables_put topNumber (.text key) hi
  rows := h.rows
  firm := by
    intro name hname i' hfind
    unfold Draft.find? Draft.put at hfind
    rw [entries_withEntries, if_pos ⟨rfl, h.top⟩, find?_putIn] at hfind
    split at hfind
    · next heq =>
      obtain rfl := Option.some.inj hfind
      exact firm_put_top (hfirm (heq ▸ hname)) _ _
    · exact firm_put_top (h.firm name hname i' hfind) _ _

theorem mem_entries_erase {n m : Nat} {key : Value} {e : Value × Item} (he : e ∈ (d.erase n key).entries m) :
    e ∈ d.entries m := by
  unfold Draft.erase at he
  rw [entries_withEntries] at he
  split at he
  · next heq => exact heq.1 ▸ (List.mem_filter.mp he).1
  · exact he

theorem size_erase (d : Draft) (n : Nat) (key : Value) : (d.erase n key).tables.size = d.tables.size :=
  Array.size_modify

theorem firm_erase {i : Item} (h : i.Firm K d) (n : Nat) (key : Value) : i.Firm K (d.erase n key) :=
  h.mono (Nat.le_of_eq (size_erase d n key).symm) fun _ _ _ hkeys e he => hkeys e (mem_entries_erase he)

/-- An entry may be taken out. -/
theorem Guarded.erase (h : d.Guarded K) (n : Nat) (key : String) : (d.erase n (.text key)).Guarded K where
  top := (size_erase d n (.text key)).symm ▸ h.top
  tables m e he := h.tables m e (mem_entries_erase he)
  rows := h.rows
  firm := by
    intro name hname i hfind
    have hfound : d.find? topNumber (.text name) = some i := by
      unfold Draft.find? Draft.erase at hfind
      rw [entries_withEntries] at hfind
      split at hfind
      · next heq =>
        rw [heq.1] at hfind
        exact find?_of_filter hfind
      · exact hfind
    exact firm_erase (h.firm name hname i hfound) n (.text key)

/-- A table may be added. -/
theorem Guarded.push (h : d.Guarded K) {es : TableEntries} (hes : ∀ e ∈ es, e.2.Inner) :
    ({ d with tables := d.tables.push es } : Draft).Guarded K where
  top := by
    rw [Array.size_push]
    exact Nat.lt_succ_of_lt h.top
  tables := by
    intro n e he
    rw [entries_push] at he
    split at he
    · exact hes e he
    · exact h.tables n e he
  rows := h.rows
  firm := by
    intro name hname i hfind
    have hkept : ∀ n < d.tables.size,
        ({ d with tables := d.tables.push es } : Draft).entries n = d.entries n := by
      intro n hn
      rw [entries_push, if_neg (Nat.ne_of_lt hn)]
    unfold Draft.find? at hfind
    rw [hkept topNumber h.top] at hfind
    refine (h.firm name hname i hfind).mono ?_ ?_
    · rw [Array.size_push]
      exact Nat.le_succ _
    · intro n _ hn hkeys e he
      exact hkeys e (hkept n hn ▸ he)

/-- Rows may change and be added. -/
theorem Guarded.withRows (h : d.Guarded K) {rows : Array (List Item)}
    (hrows : ∀ n : Nat, ∀ i ∈ (rows[n]?.getD [] : List Item), i.Inner) : ({ d with rows := rows } : Draft).Guarded K :=
  ⟨h.top, h.tables, hrows, fun name hname i hfind =>
    (h.firm name hname i hfind).mono (Nat.le_refl _) fun _ _ _ hkeys => hkeys⟩

/-- An item of a row may change. -/
theorem Guarded.setItem (h : d.Guarded K) {i : Item} (hi : i.Inner) (n index : Nat) :
    ({ d with rows := d.rows.modify n fun is => is.set index i } : Draft).Guarded K := by
  refine h.withRows ?_
  intro m i' hi'
  rw [Array.getElem?_modify] at hi'
  split at hi'
  · next heq =>
    subst heq
    cases hrow : d.rows[n]? with
    | none =>
      rw [hrow] at hi'
      cases hi'
    | some is =>
      rw [hrow] at hi'
      rcases List.mem_or_eq_of_mem_set hi' with hi' | rfl
      · refine h.rows n i' ?_
        unfold items
        rwa [hrow]
      · exact hi
  · exact h.rows m i' hi'

/-! ## What yields keys -/

theorem value_plain (d : Draft) (v : Value) : d.value (.plain v) = v := by
  unfold value
  cases d.tables.size + d.rows.size <;> rfl

/-- What can be taken into use yields keys. -/
theorem keys_of_firm {all i : Item} {items : List Item} (hall : all.Firm K d)
    (hitems : d.elements? all = some items) (hi : i ∈ items) : K (d.value i) := by
  have hkeys : ∀ n, (∀ e ∈ d.entries n, K e.1) → i ∈ (d.entries n).map (fun e => .plain e.1) → K (d.value i) := by
    intro n hn hi
    obtain ⟨e, he, rfl⟩ := List.mem_map.mp hi
    rw [value_plain]
    exact hn e he
  cases all with
  | table n | seen n | view n =>
    obtain rfl := Option.some.inj hitems
    exact hkeys n hall.2.2 hi
  | plain v =>
    obtain ⟨vs, hvs, rfl⟩ := Option.map_eq_some_iff.mp hitems
    obtain ⟨w, hw, rfl⟩ := List.mem_map.mp hi
    rw [value_plain]
    exact hall.elements hvs w hw
  | _ => exact hall.elim

/-! ## Drafts at first -/

theorem inner_plainEntries (es : Entries) : ∀ e ∈ plainEntries es, e.2.Inner := by
  intro e he
  obtain ⟨f, -, rfl⟩ := List.mem_map.mp he
  exact Item.inner_plain f.2

theorem find?_ofEntries (es : Entries) (name : String) :
    (ofEntries es).find? topNumber (.text name) = (es.get? name).map .plain := by
  show ((plainEntries es).find? fun e => e.1.same (.text name)).map (·.2) = _
  induction es with
  | nil => rfl
  | cons e es ih =>
    rw [Entries.get?_cons]
    show (((e.1, Item.plain e.2) :: plainEntries es).find? fun e => e.1.same (.text name)).map (·.2) = _
    rw [List.find?_cons, Value.same_text]
    by_cases hkey : e.1.text? = some name
    · simp [hkey]
    · rw [beq_eq_false_iff_ne.mpr hkey, if_neg hkey]
      exact ih

/-- A draft is guarded if what is looked at in the configuration itself can be taken into use. -/
theorem guarded_ofEntries {es : Entries}
    (h : ∀ name ∈ firmNames, ∀ v, es.get? name = some v → v.Firm K) : (ofEntries es).Guarded K where
  top := Nat.one_pos
  tables := by
    intro n e he
    cases n with
    | zero => exact inner_plainEntries es e he
    | succ n => cases he
  rows := fun n i hi => nomatch hi
  firm := by
    intro name hname i hfind
    rw [find?_ofEntries] at hfind
    obtain ⟨v, hv, rfl⟩ := Option.map_eq_some_iff.mp hfind
    exact h name hname v hv

end Draft

end FileDepot
