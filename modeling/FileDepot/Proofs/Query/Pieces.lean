import FileDepot.Proofs.Query.Building
import FileDepot.Proofs.Query.Settled
import FileDepot.Proofs.Value.Within

/-!
# How far a filter is taken apart

Compiled patterns become stored ones wherever a filter is taken apart. What it is not taken apart into is taken as a
whole, and a pattern inside such a piece stays as it is. Whether a list is taken apart depends on how the recursion
comes to it: under a field it is, down to its items; under an operator its items are taken as wholes; and under any
other key of a mapping it is taken as a whole itself.

Contents:

* `Native.Place`, `Native.Piece` — the values that are taken as wholes;
* `Native.Shows` — a pattern is in the result if it is in a piece;
* `Native.value_shows`, `Native.filter_shows` — values of fields, and whole filters;
* `Native.filter_patterns` — which compiled patterns are left in a filter.
-/

namespace FileDepot.Native

/-- How the recursion over a filter comes to a value: as a filter, as the filters that an operator joins, as the value
of a field, or as the value of an entry of a mapping, the key of which may be an operator's. -/
inductive Place
  | filter
  | joined
  | field
  | operand (dollar : Bool)

namespace Place

/-- The place of the value of an entry of a filter. -/
def ofKey (k : Value) : Place :=
  if isLogical k then .joined else .field

/-- The place is that of a value, whose mappings are read key by key. -/
def isValue : Place → Bool
  | .filter | .joined => false
  | .field | .operand _ => true

/-- The value is taken as a whole in the place. -/
def keeps : Place → Value → Bool
  | .filter, _ | .joined, _ => false
  | .field, v | .operand true, v => v.entriesOf?.isNone && v.items?.isNone
  | .operand false, v => v.entriesOf?.isNone

/-- No mapping is taken as a whole. -/
theorem keeps_map (place : Place) (kind : MapKind) (es : Entries) : place.keeps (.map kind es) = false := by
  cases place with
  | operand dollar => cases dollar <;> rfl
  | _ => rfl

/-- What is taken as a whole under a field is taken so under every key of a mapping. -/
theorem keeps_of_field {v : Value} (h : Place.field.keeps v = true) (dollar : Bool) :
    (Place.operand dollar).keeps v = true := by
  cases dollar with
  | true => exact h
  | false => exact (Bool.and_eq_true_iff.mp h).1

/-- The place of a key is told by its text. -/
theorem ofKey_congr {k k' : Value} (h : k.same k' = true) : ofKey k = ofKey k' := by
  unfold ofKey isLogical
  rw [Value.text?_of_same h]

end Place

/-- The entries of a filter under the names of fields; of a name that repeats the last value counts. -/
def namedEntries (es : Entries) : Entries :=
  Entries.ofPairs (es.map fun e => (fieldName e.1, e.2))

/-- The second value is one of those that are taken as wholes where the first one stands in the place. -/
inductive Piece : Place → Value → Value → Prop
  /-- A filter is taken apart into what stands under the names of fields and under the keys that join filters. -/
  | entry {kind : MapKind} {es : Entries} {e : Value × Value} {u : Value} (he : e ∈ namedEntries es)
    (h : Piece (.ofKey e.1) e.2 u) : Piece .filter (.map kind es) u
  | joined {v w u : Value} (hw : w ∈ v.elements?.getD []) (h : Piece .filter w u) : Piece .joined v u
  /-- A mapping under a field is taken apart key by key, at any depth. -/
  | operand {place : Place} {kind : MapKind} {es : Entries} {e : Value × Value} {dollar : Bool} {u : Value}
    (hplace : place.isValue = true) (he : e ∈ es) (hdollar : isOperator e.1 = .ok dollar)
    (h : Piece (.operand dollar) e.2 u) : Piece place (.map kind es) u
  /-- The items of a list under a field are taken apart in their turn. -/
  | item {v w u : Value} (hw : w ∈ v.items?.getD []) (h : Piece .field w u) : Piece .field v u
  /-- The items of a list under an operator are not. -/
  | listed {v w : Value} (hw : w ∈ v.items?.getD []) : Piece (.operand true) v w
  | whole {place : Place} {v : Value} (h : place.keeps v = true) : Piece place v v

/-- Behind a key that is no operator's a list is taken as a whole, and is not converted. -/
theorem keeps_of_items {v : Value} {vs : List Value} (h : v.items? = some vs) :
    (Place.operand false).keeps v = true ∧ convert false v = v := by
  cases v with
  | list xs | tuple xs | namedTuple fs => exact ⟨rfl, rfl⟩
  | _ => cases h

/-- Where the value is taken as a whole it is the only piece. -/
theorem piece_iff_of_keeps {place : Place} {v u : Value} (hkeeps : place.keeps v = true) :
    Piece place v u ↔ u = v := by
  constructor
  · intro h
    cases h with
    | entry | joined => cases hkeeps
    | operand =>
      rw [Place.keeps_map] at hkeeps
      cases hkeeps
    | item hw | listed hw =>
      have hitems : v.items? = none := by simpa using (Bool.and_eq_true_iff.mp hkeeps).2
      rw [hitems] at hw
      cases hw
    | whole => rfl
  · rintro rfl
    exact .whole hkeeps

/-- The pieces of a mapping are those of its values. -/
theorem piece_map_iff {place : Place} (hplace : place.isValue = true) {kind : MapKind} {es : Entries} {u : Value} :
    Piece place (.map kind es) u ↔
      ∃ e ∈ es, ∃ dollar, isOperator e.1 = .ok dollar ∧ Piece (.operand dollar) e.2 u := by
  constructor
  · intro h
    cases h with
    | entry => cases hplace
    | joined => cases hplace
    | operand _ he hdollar h => exact ⟨_, he, _, hdollar, h⟩
    | item hw | listed hw => cases hw
    | whole hkeeps =>
      rw [Place.keeps_map] at hkeeps
      cases hkeeps
  · rintro ⟨e, he, dollar, hdollar, h⟩
    exact .operand hplace he hdollar h

/-- The pieces of a list under a field are those of its items. -/
theorem piece_items_iff {v : Value} {vs : List Value} (hitems : v.items? = some vs) {u : Value} :
    Piece .field v u ↔ ∃ w ∈ vs, Piece .field w u := by
  constructor
  · intro h
    cases h with
    | operand => cases hitems
    | item hw h =>
      rw [hitems] at hw
      exact ⟨_, hw, h⟩
    | whole hkeeps => simp [Place.keeps, hitems] at hkeeps
  · rintro ⟨w, hw, h⟩
    exact .item (by rwa [hitems]) h

/-- The pieces of a list under an operator are its items. -/
theorem piece_listed_iff {v : Value} {vs : List Value} (hitems : v.items? = some vs) {u : Value} :
    Piece (.operand true) v u ↔ u ∈ vs := by
  constructor
  · intro h
    cases h with
    | operand => cases hitems
    | listed hw =>
      rw [hitems] at hw
      exact hw
    | whole hkeeps => simp [Place.keeps, hitems] at hkeeps
  · intro hu
    exact .listed (by rwa [hitems])

/-- The pieces of filters that are joined are those of each. -/
theorem piece_joined_iff {v u : Value} : Piece .joined v u ↔ ∃ w ∈ v.elements?.getD [], Piece .filter w u := by
  constructor
  · intro h
    cases h with
    | operand hplace => cases hplace
    | joined hw h => exact ⟨_, hw, h⟩
    | whole hkeeps => cases hkeeps
  · rintro ⟨w, hw, h⟩
    exact .joined hw h

/-- The pieces of a filter are those of the values under its names. -/
theorem piece_filter_iff {kind : MapKind} {es : Entries} {u : Value} :
    Piece .filter (.map kind es) u ↔ ∃ e ∈ namedEntries es, Piece (.ofKey e.1) e.2 u := by
  constructor
  · intro h
    cases h with
    | operand hplace => cases hplace
    | entry he h => exact ⟨_, he, h⟩
    | whole hkeeps => cases hkeeps
  · rintro ⟨e, he, h⟩
    exact .entry he h

/-- What is no mapping, or an empty one, has no pieces as a filter. -/
theorem not_piece_of_emptyFilter {v u : Value} {es : Entries} (h : emptyFilter v = .ok es) : ¬ Piece .filter v u := by
  intro hpiece
  cases hpiece with
  | operand hplace => cases hplace
  | whole hkeeps => cases hkeeps
  | @entry kind fs e u he =>
    unfold emptyFilter at h
    cases fs with
    | nil => cases he
    | cons f fs => cases h

/-! ## What results show -/

/-- The value is inside the result exactly if it is inside one of the pieces, each of which is converted. -/
def Shows (x : Value) (place : Place) (v w : Value) : Prop :=
  x.Within w ↔ ∃ u, Piece place v u ∧ x.Within (convert false u)

section

variable {x : Value} (hx : x.isPattern = true)

/-- A result is shown by its parts, one by one, if these have the pieces. -/
theorem shows_of_related {α β : Type} {as : List α} {bs : List β} {pieces : α → Value → Prop} {part : β → Value}
    {place : Place} {v w : Value} (hw : x.Within w ↔ ∃ b ∈ bs, x.Within (part b))
    (hv : ∀ u, Piece place v u ↔ ∃ a ∈ as, pieces a u)
    (h : List.Forall₂ (fun a b => x.Within (part b) ↔ ∃ u, pieces a u ∧ x.Within (convert false u)) as bs) :
    Shows x place v w := by
  unfold Shows
  rw [hw, exists_iff_of_related h]
  constructor
  · rintro ⟨a, ha, u, hu, hwithin⟩
    exact ⟨u, (hv u).mpr ⟨a, ha, hu⟩, hwithin⟩
  · rintro ⟨u, hu, hwithin⟩
    obtain ⟨a, ha, hu⟩ := (hv u).mp hu
    exact ⟨a, ha, u, hu, hwithin⟩

include hx

/-- No pattern is inside a value without parts that is none. -/
theorem not_within {v : Value} (hv : v.isPattern = false) (hparts : v.parts = []) : ¬ x.Within v := by
  rw [Value.within_iff_parts hx hv, hparts]
  simp

/-- For the patterns inside a value it does not matter under which field it is converted. -/
theorem within_convert (underId : Bool) (u : Value) :
    x.Within (convert underId u) ↔ x.Within (convert false u) := by
  cases underId with
  | false => exact Iff.rfl
  | true =>
    cases u with
    | text s | textMember s =>
      -- a text stays one or becomes an identifier, and neither has a pattern inside
      refine iff_of_false ?_ (not_within hx rfl rfl)
      cases hid : ObjectId.ofText? s <;> simp only [convert, if_true, hid] <;> exact not_within hx rfl rfl
    | _ => exact Iff.rfl

theorem shows_of_keeps {place : Place} {v : Value} (hkeeps : place.keeps v = true) (underId : Bool) :
    Shows x place v (convert underId v) := by
  unfold Shows
  simp only [piece_iff_of_keeps hkeeps, exists_eq_left]
  exact within_convert hx underId v

/-! ## Values of fields -/

/-- What becomes of the value in the places of values shows its pieces. -/
def ValueShows (x v : Value) : Prop :=
  ∀ underId, (∀ w, fieldValue underId v = .ok w → Shows x .field v w) ∧
    ∀ dollar w, operand underId dollar v = .ok w → Shows x (.operand dollar) v w

omit hx in
theorem operandEntry_shows {underId : Bool} {e g : Value × Value} (he : ValueShows x e.2)
    (h : operandEntry underId e = .ok g) :
    x.Within g.2 ↔ ∃ u, (∃ dollar, isOperator e.1 = .ok dollar ∧ Piece (.operand dollar) e.2 u) ∧
      x.Within (convert false u) := by
  obtain ⟨-, dollar, hdollar, hvalue⟩ := operandEntry_eq_ok.mp h
  have hshows : Shows x (.operand dollar) e.2 g.2 := (he underId).2 dollar g.2 hvalue
  have hunique : ∀ u, (∃ dollar, isOperator e.1 = .ok dollar ∧ Piece (.operand dollar) e.2 u) ↔
      Piece (.operand dollar) e.2 u := by
    simp [hdollar]
  simp only [hunique]
  exact hshows

/-- A mapping shows the pieces of its values. -/
theorem operands_show {place : Place} (hplace : place.isValue = true) {kind : MapKind} {es : Entries}
    (hes : ∀ e ∈ es, ValueShows x e.2) {underId : Bool} {w : Value}
    (h : (operands underId es).map .document = .ok w) : Shows x place (.map kind es) w := by
  obtain ⟨gs, hgs, rfl⟩ := map_eq_ok.mp h
  rw [operands_eq] at hgs
  exact shows_of_related (Value.within_document hx) (fun u => piece_map_iff hplace)
    (related_of_mapM (fun e he g => operandEntry_shows (hes e he)) hgs)

/-- A list under an operator shows its items. -/
theorem listed_shows {v : Value} {vs : List Value} (hitems : v.items? = some vs) (underId : Bool) :
    Shows x (.operand true) v (operandItems underId vs) := by
  unfold Shows operandItems
  rw [Value.within_list hx]
  simp only [piece_listed_iff hitems, List.mem_map, exists_exists_and_eq_and, within_convert hx underId]

/-- A list, or a tuple, shows the pieces of its items, or its items. -/
theorem valueShows_of_items {v : Value} {vs : List Value} (hitems : v.items? = some vs)
    (hvs : ∀ u ∈ vs, ValueShows x u) : ValueShows x v := by
  intro underId
  constructor
  -- the three ways of a list: item by item, its items as wholes, and as a whole itself
  · intro w hw
    rw [fieldValue_of_items hitems] at hw
    obtain ⟨ws, hws, rfl⟩ := map_eq_ok.mp hw
    exact shows_of_related (Value.within_list hx) (fun u => piece_items_iff hitems)
      (related_of_mapM (fun u hu => (hvs u hu underId).1) hws)
  · intro dollar w hw
    rw [operand_of_items hitems] at hw
    obtain rfl := Except.ok.inj hw
    cases dollar with
    | true => exact listed_shows hx hitems underId
    | false =>
      obtain ⟨hkeeps, hconvert⟩ := keeps_of_items hitems
      have hwhole := shows_of_keeps hx hkeeps false
      rw [hconvert] at hwhole
      exact hwhole

/-- A value that is taken as a whole in every place of a value shows itself. -/
theorem valueShows_of_convert {v : Value} (hkeeps : Place.field.keeps v = true)
    (hfield : ∀ underId, fieldValue underId v = .ok (convert underId v))
    (hoperand : ∀ underId dollar, operand underId dollar v = .ok (convert underId v)) : ValueShows x v := by
  intro underId
  constructor
  · intro w hw
    obtain rfl := Except.ok.inj ((hfield underId).symm.trans hw)
    exact shows_of_keeps hx hkeeps underId
  · intro dollar w hw
    obtain rfl := Except.ok.inj ((hoperand underId dollar).symm.trans hw)
    exact shows_of_keeps hx (Place.keeps_of_field hkeeps dollar) underId

/-- **What becomes of a value under a field shows the pieces of the value.** -/
theorem value_shows (v : Value) : ValueShows x v := by
  induction v using Value.induction_parts with
  | parts v ih =>
    cases v with
    | map kind es =>
      have hes : ∀ e ∈ es, ValueShows x e.2 := fun e he => ih e.2 (List.mem_map_of_mem he)
      intro underId
      exact ⟨fun w hw => operands_show hx rfl hes hw, fun dollar w hw => operands_show hx rfl hes hw⟩
    | list vs | tuple vs | namedTuple fs => exact valueShows_of_items hx rfl ih
    | _ => exact valueShows_of_convert hx rfl (fun _ => rfl) fun _ _ => rfl

/-! ## Filters -/

/-- What becomes of the filter shows its pieces. -/
def FilterShows (x v : Value) : Prop :=
  ∀ es, filter v = .ok es → Shows x .filter v (.document es)

/-- What becomes of the value of an entry shows its pieces. -/
def EntryShows (x : Value) (k v w : Value) : Prop :=
  Shows x (.ofKey k) v w

/-- What becomes of the entries of a filter shows their pieces, entry by entry. -/
def EntriesShow (x : Value) (es : Entries) : Prop :=
  ∀ gs, filterEntries es = .ok gs →
    Entries.Related (EntryShows x) (es.map fun e => (fieldName e.1, e.2)) gs

/-- What a value is read as shows the pieces of the filters in it, one by one. -/
def JoinedShow {α : Type} (x : Value) (elements : α → List Value) (read : α → Except Failure (List Value)) (a : α) :
    Prop :=
  ∀ ws, read a = .ok ws → List.Forall₂ (Shows x .filter) (elements a) ws

/-- What is nothing at all shows no pieces, since it has none. -/
theorem emptyFilter_shows {v : Value} {es : Entries} (h : emptyFilter v = .ok es) :
    Shows x .filter v (.document es) := by
  obtain rfl := emptyFilter_eq_ok h
  refine iff_of_false (not_within hx rfl rfl) ?_
  rintro ⟨u, hu, -⟩
  exact not_piece_of_emptyFilter h hu

/-- A filter shows the pieces of its entries. -/
theorem filterShows_of_entries {es : Entries} (hes : EntriesShow x es) (kind : MapKind) :
    FilterShows x (.map kind es) := by
  intro _ h
  obtain ⟨gs, hgs, rfl⟩ := map_eq_ok.mp h
  have hrelated := hes gs hgs
  -- where keys are equal a value gets the key of another entry, but not another place
  have hnamed : Entries.Related (EntryShows x) (namedEntries es) (Entries.ofPairs gs) := by
    refine hrelated.ofPairs fun k k' hsame v w hvalue => ?_
    unfold EntryShows at hvalue ⊢
    rwa [Place.ofKey_congr hsame]
  exact shows_of_related (Value.within_document hx) (fun _ => piece_filter_iff) (hnamed.imp fun e g heg => heg.2)

/-- The list of the filters that a value joins shows their pieces. -/
theorem joined_shows {v : Value} {ws : List Value}
    (h : List.Forall₂ (Shows x .filter) (v.elements?.getD []) ws) : Shows x .joined v (.list ws) :=
  shows_of_related (Value.within_list hx) (fun _ => piece_joined_iff) h

omit hx in
/-- One more filter in front of others. -/
theorem joinedShow_cons {v : Value} {vs : List Value} {others : Except Failure (List Value)} (hv : FilterShows x v)
    (hothers : ∀ ws, others = .ok ws → List.Forall₂ (Shows x .filter) vs ws) {ws : List Value}
    (h : (do let es ← filter v; let ws ← others; .ok (.document es :: ws)) = Except.ok ws) :
    List.Forall₂ (Shows x .filter) (v :: vs) ws := by
  obtain ⟨es, rest, hes, hrest, rfl⟩ := filters_cons_eq_ok h
  exact .cons (hv es hes) (hothers rest hrest)

/-- Of the elements of what is none of the collections only those that are nothing at all are filters. -/
theorem joinedShow_elements {v : Value} (h : joinedFilters v = v.elements.bind emptyFilters) :
    JoinedShow x (fun v => v.elements?.getD []) joinedFilters v := by
  intro ws hws
  rw [h] at hws
  obtain ⟨vs, hvs, hempty⟩ := bind_eq_ok.mp hws
  show List.Forall₂ (Shows x .filter) (v.elements?.getD []) ws
  rw [Value.elements_eq_ok.mp hvs, Option.getD_some]
  refine (mapM_eq_ok.mp hempty).imp fun u w huw => ?_
  obtain ⟨es, hes, rfl⟩ := map_eq_ok.mp huw
  exact emptyFilter_shows hx hes

theorem filterShows_of_ne {v : Value} (hv : ∀ kind es, v = .map kind es → False) : FilterShows x v := by
  intro es h
  exact emptyFilter_shows hx (filter_of_ne hv ▸ h)

theorem entriesShow_joined {k v : Value} {es : Entries} (hlogical : isLogical k = true)
    (hv : JoinedShow x (fun v => v.elements?.getD []) joinedFilters v) (hes : EntriesShow x es) :
    EntriesShow x ((k, v) :: es) := by
  intro gs hgs
  obtain ⟨joined, rest, hjoined, hrest, rfl⟩ := filterEntries_joined_eq_ok hlogical hgs
  have hname : fieldName k = k := by
    rw [fieldName, isIdKey_of_isLogical hlogical]
    rfl
  refine .cons ⟨hname.symm, ?_⟩ (hes rest hrest)
  show Shows x (.ofKey (fieldName k)) v (.list joined)
  rw [hname, Place.ofKey, if_pos hlogical]
  exact joined_shows hx (hv joined hjoined)

theorem entriesShow_field {k v : Value} {es : Entries} (hlogical : ¬ isLogical k = true)
    (hes : EntriesShow x es) : EntriesShow x ((k, v) :: es) := by
  intro gs hgs
  obtain ⟨w, rest, hw, hrest, rfl⟩ := filterEntries_field_eq_ok hlogical hgs
  refine .cons ⟨rfl, ?_⟩ (hes rest hrest)
  show Shows x (.ofKey (fieldName k)) v w
  rw [Place.ofKey, isLogical_fieldName, if_neg hlogical]
  exact (value_shows hx v (isIdKey k)).1 w hw

/-- **What becomes of a filter shows its pieces**, by the recursion that reads it. -/
theorem filter_shows (v : Value) : FilterShows x v := by
  apply filter.induct (FilterShows x) (EntriesShow x) (JoinedShow x (fun v => v.elements?.getD []) joinedFilters)
    (JoinedShow x (List.map Prod.fst) keyFilters) (JoinedShow x (List.map Prod.snd) namedFilters)
    (JoinedShow x id filters)
  · exact fun kind es hes => filterShows_of_entries hx hes kind
  · exact fun v hv => filterShows_of_ne hx hv
  -- under a key that joins filters: a list, a tuple, a set, the places of a tuple, the keys of a mapping
  · exact fun xs hxs => hxs
  · exact fun xs hxs => hxs
  · exact fun fixed xs hxs => hxs
  · exact fun fs hfs => hfs
  · exact fun kind es hes => hes
  · intro v hlist htuple hset hnamed hmap
    apply joinedShow_elements hx
    rw [joinedFilters] <;> assumption
  -- filters one after another, of a list and of the places of a tuple
  · exact fun ws hws => Except.ok.inj hws ▸ .nil
  · exact fun v vs hv hvs ws hws => joinedShow_cons hv hvs hws
  · exact fun ws hws => Except.ok.inj hws ▸ .nil
  · exact fun name v fs hv hfs ws hws => joinedShow_cons hv hfs hws
  -- entries one after another
  · exact fun gs hgs => Except.ok.inj hgs ▸ .nil
  · exact fun k v es hlogical hv hes => entriesShow_joined hx hlogical hv hes
  · exact fun k v es hlogical hes => entriesShow_field hx hlogical hes
  -- filters that are the keys of a mapping
  · exact fun ws hws => Except.ok.inj hws ▸ .nil
  · exact fun k v es hk hes ws hws => joinedShow_cons hk hes hws

end

/-- A compiled pattern is left of a piece that is converted if it stands inside the piece, and is not the piece. -/
theorem pattern_within_convert (p : Pattern) (u : Value) :
    (Value.pattern p).Within (convert false u) ↔ u ≠ .pattern p ∧ (Value.pattern p).Within u := by
  cases u with
  | pattern q =>
    refine iff_of_false ?_ ?_
    · intro h
      cases (Value.within_iff_eq rfl).mp h
    · rintro ⟨hne, h⟩
      exact hne ((Value.within_iff_eq rfl).mp h)
  | _ => exact (and_iff_right Value.noConfusion).symm

/-- **A compiled pattern is left in a filter exactly if it stands inside a piece that is taken as a whole**, as a list
is that an embedded document has under a key of its own, or one inside the list of an operator. A pattern that is a
piece itself is there in the form that a store keeps, with the same source and flags. -/
theorem filter_patterns {v : Value} {es : Entries} (h : filter v = .ok es) (p : Pattern) :
    ((Value.pattern p).Within (.document es) ↔
        ∃ u, Piece .filter v u ∧ u ≠ .pattern p ∧ (Value.pattern p).Within u) ∧
      (Piece .filter v (.pattern p) → (Value.storedRegex p.toStored).Within (.document es)) := by
  constructor
  · have hshows := filter_shows (x := .pattern p) rfl v es h
    unfold Shows at hshows
    simp only [pattern_within_convert] at hshows
    exact hshows
  · intro hpiece
    exact (filter_shows rfl v es h).mpr ⟨.pattern p, hpiece, .here⟩

/-- A pattern in the list of a field of a joined filter becomes a stored one, and the same pattern in a list of an
embedded document is left as it is. -/
theorem filter_patterns_of_embedded_list :
    let p : Pattern := ⟨.text "x", 32⟩
    let es : Entries := [(.text "$or", .list [.document [(.text "j", .list [.pattern p])]]),
      (.text "k", .document [(.text "a", .list [.pattern p])])]
    let gs : Entries := [(.text "$or", .list [.document [(.text "j", .list [.storedRegex p.toStored])]]),
      (.text "k", .document [(.text "a", .list [.pattern p])])]
    filter (.document es) = .ok gs ∧ (Value.storedRegex p.toStored).Within (.document gs) ∧
      (Value.pattern p).Within (.document gs) := by
  intro p es gs
  have hfilter : filter (.document es) = .ok gs := rfl
  have hlisted : Piece .field (.list [.pattern p]) (.pattern p) := .item List.mem_cons_self (.whole rfl)
  have hjoined : Piece .filter (.document [(.text "j", .list [.pattern p])]) (.pattern p) :=
    .entry (e := (.text "j", _)) List.mem_cons_self hlisted
  have hembedded : Piece .field (.document [(.text "a", .list [.pattern p])]) (.list [.pattern p]) :=
    .operand rfl List.mem_cons_self rfl (.whole rfl)
  have hfirst : Piece .filter (.document es) (.pattern p) :=
    .entry (e := (.text "$or", _)) List.mem_cons_self (.joined List.mem_cons_self hjoined)
  have hsecond : Piece .filter (.document es) (.list [.pattern p]) :=
    .entry (e := (.text "k", _)) (List.mem_cons_of_mem _ List.mem_cons_self) hembedded
  obtain ⟨hleft, hstored⟩ := filter_patterns hfilter p
  exact ⟨hfilter, hstored hfirst, hleft.mpr ⟨_, hsecond, nofun, .part List.mem_cons_self .here⟩⟩

end FileDepot.Native
