import FileDepot.Proofs.Value.Parts
import FileDepot.Value.Access
import Mathlib.Logic.Basic

/-!
# Patterns in stored form

A store keeps patterns in a form of its own. A value without patterns compares with another one regardless of
the form in which that one holds its patterns.

Contents:

* `Pattern.WellFlagged` — flags that go together, which compiling gives;
* `Value.PatternFree` — a value without patterns;
* `StoredAs` — a value some patterns of which are in stored form;
* `equals_storedAs` — comparing with a value without patterns does not tell the forms apart.
-/

namespace FileDepot

/-! ## Compiled patterns -/

namespace Pattern

/-- The flags of the pattern go together and go with its source. -/
def WellFlagged (p : Pattern) : Prop :=
  p.toStored.flagFault? = none

/-- The stored form of a pattern matches what the pattern matches. -/
theorem searches_toStored (engine : Engine) {p : Pattern} (h : p.WellFlagged) (text : String) :
    p.toStored.searches engine text = p.searches engine text := by
  have hflags : p.toStored.flagFault? = none := h
  have hsource : Pattern.searches engine ⟨p.toStored.source, p.toStored.flags⟩ text = p.searches engine text := rfl
  rw [StoredRegex.searches, hsource, hflags]
  cases p.searches engine text with
  | ok answer => rfl
  | error refusal => cases refusal <;> rfl

theorem hasFlag_or (flags flags' flag : Nat) :
    hasFlag (flags ||| flags') flag = (hasFlag flags flag || hasFlag flags' flag) := by
  rw [hasFlag, hasFlag, hasFlag, Nat.and_or_distrib_right, Bool.eq_iff_iff]
  simp only [bne_iff_ne, ne_eq, Bool.or_eq_true, Nat.or_eq_zero_iff]
  exact not_and_or

/-- No option stands for the conventions of a place, or for Unicode. -/
theorem hasFlag_flagsOf (o : Regex.Options) :
    hasFlag (flagsOf o) localeFlag = false ∧ hasFlag (flagsOf o) unicodeFlag = false := by
  obtain ⟨ignoreCase, multiLine, dotAll, verbose, asciiOnly⟩ := o
  revert ignoreCase multiLine dotAll verbose asciiOnly
  decide

theorem hasFlag_inlineFlags (source : PatternSource) (flags : Nat) :
    hasFlag (inlineFlags source flags) localeFlag = false ∧
      hasFlag (inlineFlags source flags) unicodeFlag = false := by
  rw [inlineFlags]
  split
  · exact hasFlag_flagsOf _
  · decide

theorem toStored_compile (source : PatternSource) (flags : Nat) :
    (compile source flags).toStored.source = source := rfl

/-- **Compiling gives flags that go together**, unless it is asked for a place or for Unicode. -/
theorem wellFlagged_compile (source : PatternSource) {flags : Nat} (hplace : hasFlag flags localeFlag = false)
    (hunicode : hasFlag flags unicodeFlag = false) : (compile source flags).WellFlagged := by
  obtain ⟨hinlinePlace, hinlineUnicode⟩ := hasFlag_inlineFlags source flags
  rw [WellFlagged, StoredRegex.flagFault?]
  cases source with
  | text s =>
    have hflags : (compile (.text s) flags).toStored.flags =
        flags ||| (if hasFlag (flags ||| inlineFlags (.text s) flags) asciiFlag then 0 else unicodeFlag) |||
          inlineFlags (.text s) flags := rfl
    simp only [toStored_compile, hflags, hasFlag_or, hplace, hunicode, hinlinePlace, hinlineUnicode]
    cases hasFlag flags asciiFlag <;> cases hasFlag (inlineFlags (.text s) flags) asciiFlag <;> rfl
  | bytes bs =>
    have hflags : (compile (.bytes bs) flags).toStored.flags =
        flags ||| 0 ||| inlineFlags (.bytes bs) flags := rfl
    simp only [toStored_compile, hflags, hasFlag_or, hplace, hunicode, hinlinePlace, hinlineUnicode]
    rfl

end Pattern

/-! ## Values without patterns -/

namespace Value

/-- The value is a pattern, compiled or stored. -/
def isPattern : Value → Bool
  | .pattern _ | .storedRegex _ => true
  | _ => false

/-- Neither the value nor any part of it is a pattern. -/
inductive PatternFree : Value → Prop
  | mk {v : Value} (h : v.isPattern = false) (hparts : ∀ u ∈ v.parts, PatternFree u) : PatternFree v

theorem PatternFree.isPattern_eq {v : Value} (h : v.PatternFree) : v.isPattern = false := by
  cases h with
  | mk h _ => exact h

theorem PatternFree.of_mem_parts {u v : Value} (h : v.PatternFree) (hu : u ∈ v.parts) : u.PatternFree := by
  cases h with
  | mk _ hparts => exact hparts u hu

/-- A value without parts is free of patterns unless it is one. -/
theorem patternFree_of_parts_eq_nil {v : Value} (h : v.isPattern = false) (hparts : v.parts = []) :
    v.PatternFree :=
  .mk h (by simp [hparts])

end Value

/-! ## Stored forms -/

mutual

/-- The second value is the first with some of its patterns in stored form: the patterns among the items of
lists and the values of plain mappings, at any depth. -/
inductive StoredAs : Value → Value → Prop
  | same (v : Value) : StoredAs v v
  | pattern {p : Pattern} (h : p.WellFlagged) : StoredAs (.pattern p) (.storedRegex p.toStored)
  | list {vs ws : List Value} (h : ItemsStoredAs vs ws) : StoredAs (.list vs) (.list ws)
  | mapping {es gs : Entries} (h : EntriesStoredAs es gs) : StoredAs (.map .plain es) (.map .plain gs)

/-- The items of the second list are those of the first with some of their patterns in stored form. -/
inductive ItemsStoredAs : List Value → List Value → Prop
  | nil : ItemsStoredAs [] []
  | cons {v w : Value} {vs ws : List Value} (h : StoredAs v w) (hs : ItemsStoredAs vs ws) :
    ItemsStoredAs (v :: vs) (w :: ws)

/-- The entries of the second list have the keys of the first, and their values with some of their patterns in
stored form. -/
inductive EntriesStoredAs : Entries → Entries → Prop
  | nil : EntriesStoredAs [] []
  | cons {k v w : Value} {es gs : Entries} (h : StoredAs v w) (hs : EntriesStoredAs es gs) :
    EntriesStoredAs ((k, v) :: es) ((k, w) :: gs)

end

theorem ItemsStoredAs.refl (vs : List Value) : ItemsStoredAs vs vs := by
  induction vs with
  | nil => exact .nil
  | cons v vs ih => exact .cons (.same v) ih

theorem EntriesStoredAs.refl (es : Entries) : EntriesStoredAs es es := by
  induction es with
  | nil => exact .nil
  | cons e es ih => exact .cons (.same e.2) ih

theorem ItemsStoredAs.length_eq {vs ws : List Value} (h : ItemsStoredAs vs ws) : vs.length = ws.length := by
  induction vs generalizing ws with
  | nil =>
    cases h
    rfl
  | cons v vs ih =>
    cases h with
    | cons _ hs => simp [ih hs]

theorem EntriesStoredAs.keys_eq {es gs : Entries} (h : EntriesStoredAs es gs) :
    es.map Prod.fst = gs.map Prod.fst := by
  induction es generalizing gs with
  | nil =>
    cases h
    rfl
  | cons e es ih =>
    cases h with
    | cons _ hs => simp [ih hs]

theorem EntriesStoredAs.length_eq {es gs : Entries} (h : EntriesStoredAs es gs) : es.length = gs.length := by
  simpa using congrArg List.length h.keys_eq

/-! ## Comparing -/

namespace Value

/-- Comparing the first two values is comparing the second two. -/
def ComparedAs (a b a' b' : Value) : Prop :=
  same a b = same a' b' ∧ disturbs a b = disturbs a' b'

/-- Whatever forms the patterns of `a` and of another value have, comparing the two gives the same answer, if
one of them has none. -/
def Insensitive (a : Value) : Prop :=
  ∀ a' b b', StoredAs a a' → StoredAs b b' → a.PatternFree ∨ b.PatternFree → ComparedAs a b a' b'

theorem items_comparedAs {xs xs' ys ys' : List Value} (h : ∀ x ∈ xs, Insensitive x)
    (hxs : ItemsStoredAs xs xs') (hys : ItemsStoredAs ys ys')
    (hfree : (∀ x ∈ xs, x.PatternFree) ∨ ∀ y ∈ ys, y.PatternFree) :
    sameItems xs ys = sameItems xs' ys' ∧ itemsDisturb xs ys = itemsDisturb xs' ys' := by
  induction xs generalizing xs' ys ys' with
  | nil =>
    cases hxs
    cases hys with
    | nil => exact ⟨rfl, rfl⟩
    | cons => exact ⟨rfl, rfl⟩
  | cons x xs ih =>
    cases hxs with
    | cons hx hxs =>
      cases hys with
      | nil => exact ⟨rfl, rfl⟩
      | cons hy hys =>
        obtain ⟨hsame, hdisturbs⟩ := h x (by simp) _ _ _ hx hy
          (hfree.imp (fun h => h x (by simp)) fun h => h _ (by simp))
        obtain ⟨hitems, hitemsDisturb⟩ := ih (fun x hx => h x (by simp [hx])) hxs hys
          (hfree.imp (fun h x hx => h x (by simp [hx])) fun h y hy => h y (by simp [hy]))
        simp only [sameItems, itemsDisturb, hsame, hdisturbs, hitems, hitemsDisturb, and_self]

theorem comparedAs_list {xs xs' ys ys' : List Value} (h : ∀ x ∈ xs, Insensitive x)
    (hxs : ItemsStoredAs xs xs') (hys : ItemsStoredAs ys ys')
    (hfree : (Value.list xs).PatternFree ∨ (Value.list ys).PatternFree) :
    ComparedAs (.list xs) (.list ys) (.list xs') (.list ys') := by
  obtain ⟨hsame, hdisturb⟩ := items_comparedAs h hxs hys
    (hfree.imp (fun h x hx => h.of_mem_parts hx) fun h y hy => h.of_mem_parts hy)
  refine ⟨by simpa [same] using hsame, ?_⟩
  simp only [disturbs, hxs.length_eq, hys.length_eq, hdisturb]

/-- An entry of the same key and an equal value is found regardless of the forms. -/
theorem any_comparedAs {k v v' : Value} {gs gs' : Entries} (h : Insensitive v) (hv : StoredAs v v')
    (hgs : EntriesStoredAs gs gs') (hfree : v.PatternFree ∨ ∀ g ∈ gs, g.2.PatternFree) :
    (gs.any fun g => same k g.1 && same v g.2) = gs'.any fun g => same k g.1 && same v' g.2 := by
  induction gs generalizing gs' with
  | nil =>
    cases hgs
    rfl
  | cons g gs ih =>
    cases hgs with
    | cons hg hgs =>
      have hsame := (h _ _ _ hv hg (hfree.imp_right fun h => h _ List.mem_cons_self)).1
      rw [List.any_cons, List.any_cons, ih hgs (hfree.imp_right fun h g hg => h g (by simp [hg])), hsame]

/-- The entry of a key is found in the same place regardless of the forms. -/
theorem find_storedAs {k : Value} {gs gs' : Entries} (hgs : EntriesStoredAs gs gs') :
    (gs.find? (fun g => same k g.1) = none ∧ gs'.find? (fun g => same k g.1) = none) ∨
      ∃ key w w', gs.find? (fun g => same k g.1) = some (key, w) ∧
        gs'.find? (fun g => same k g.1) = some (key, w') ∧ StoredAs w w' := by
  induction gs generalizing gs' with
  | nil =>
    cases hgs
    exact .inl ⟨rfl, rfl⟩
  | cons g gs ih =>
    obtain ⟨key, w⟩ := g
    cases hgs with
    | @cons _ _ w' _ _ hw hgs =>
      cases hkey : same k key with
      | true => exact .inr ⟨key, w, w', by simp [hkey], by simp [hkey], hw⟩
      | false =>
        rcases ih hgs with ⟨hnone, hnone'⟩ | ⟨key', u, u', hfind, hfind', hu⟩
        · exact .inl ⟨by simp [hkey, hnone], by simp [hkey, hnone']⟩
        · exact .inr ⟨key', u, u', by simp [hkey, hfind], by simp [hkey, hfind'], hu⟩

theorem entries_comparedAs {es es' gs gs' : Entries} (h : ∀ e ∈ es, Insensitive e.2)
    (hes : EntriesStoredAs es es') (hgs : EntriesStoredAs gs gs')
    (hfree : (∀ e ∈ es, e.2.PatternFree) ∨ ∀ g ∈ gs, g.2.PatternFree) :
    allEntries es gs = allEntries es' gs' ∧ entriesDisturb es gs = entriesDisturb es' gs' := by
  induction es generalizing es' with
  | nil =>
    cases hes
    exact ⟨rfl, rfl⟩
  | cons e es ih =>
    obtain ⟨k, v⟩ := e
    cases hes with
    | @cons _ _ v' _ es' hv hes =>
      have hv' : Insensitive v := h (k, v) (by simp)
      have hfreev : v.PatternFree ∨ ∀ g ∈ gs, g.2.PatternFree := hfree.imp_left fun h => h (k, v) (by simp)
      obtain ⟨hentries, hentriesDisturb⟩ := ih (fun e he => h e (by simp [he])) hes
        (hfree.imp_left fun h e he => h e (by simp [he]))
      constructor
      · rw [allEntries, allEntries, any_comparedAs hv' hv hgs hfreev, hentries]
      · rw [entriesDisturb, entriesDisturb, hentriesDisturb]
        -- the values of the first entry of the key decide, and those are found in the same place
        rcases find_storedAs (k := k) hgs with ⟨hnone, hnone'⟩ | ⟨key, w, w', hfind, hfind', hw⟩
        · rw [hnone, hnone']
        · have hmem : (key, w) ∈ gs := List.mem_of_find?_eq_some hfind
          obtain ⟨hsame, hdisturbs⟩ := hv' _ _ _ hv hw (hfreev.imp_right fun h => h (key, w) hmem)
          rw [hfind, hfind']
          simp only [hsame, hdisturbs]

/-- Two mappings that are not both ordered. -/
theorem comparedAs_map {kind kind' : MapKind} {es es' gs gs' : Entries}
    (hkinds : (kind == .ordered && kind' == .ordered) = false) (h : ∀ e ∈ es, Insensitive e.2)
    (hes : EntriesStoredAs es es') (hgs : EntriesStoredAs gs gs')
    (hfree : (Value.map kind es).PatternFree ∨ (Value.map kind' gs).PatternFree) :
    ComparedAs (.map kind es) (.map kind' gs) (.map kind es') (.map kind' gs') := by
  obtain ⟨hsame, hdisturb⟩ := entries_comparedAs h hes hgs
    (hfree.imp (fun h e he => h.of_mem_parts (List.mem_map_of_mem he))
      fun h g hg => h.of_mem_parts (List.mem_map_of_mem hg))
  constructor
  · simp only [same, hkinds, Bool.false_eq_true, if_false, hes.length_eq, hgs.length_eq, hsame]
  · simp only [disturbs, hes.length_eq, hgs.length_eq, hdisturb]

/-- A pattern differs from what is none, in either form. -/
theorem comparedAs_pattern_right {a : Value} (h : a.isPattern = false) (p : Pattern) (r : StoredRegex) :
    ComparedAs a (.pattern p) a (.storedRegex r) := by
  cases a with
  | pattern q | storedRegex q => cases h
  | _ => exact ⟨rfl, rfl⟩

theorem comparedAs_pattern_left {b : Value} (h : b.isPattern = false) (p : Pattern) (r : StoredRegex) :
    ComparedAs (.pattern p) b (.storedRegex r) b := by
  cases b with
  | pattern q | storedRegex q => cases h
  | _ => exact ⟨rfl, rfl⟩

/-- **Comparing does not tell the forms of patterns apart**, if one of the values has none. -/
theorem insensitive (a : Value) : Insensitive a := by
  induction a using Value.induction_parts with
  | parts a ih =>
    intro a' b b' ha hb hfree
    have hnot (p : Pattern) : ¬ (Value.pattern p).PatternFree := fun h => by cases h.isPattern_eq
    -- values of different shapes differ in either form; lists and mappings are compared part by part
    cases ha with
    | same =>
      cases hb with
      | same => exact ⟨rfl, rfl⟩
      | @pattern p =>
        exact comparedAs_pattern_right (hfree.resolve_right (hnot p)).isPattern_eq p _
      | list hb =>
        cases a with
        | list xs => exact comparedAs_list ih (.refl xs) hb hfree
        | _ => exact ⟨rfl, rfl⟩
      | mapping hb =>
        cases a with
        | map kind es =>
          exact comparedAs_map (by simp) (fun e he => ih e.2 (List.mem_map_of_mem he)) (.refl es) hb hfree
        | _ => exact ⟨rfl, rfl⟩
    | @pattern p =>
      have hb' := (hfree.resolve_left (hnot p)).isPattern_eq
      cases hb with
      | same => exact comparedAs_pattern_left hb' p _
      | pattern => cases hb'
      | list | mapping => exact ⟨rfl, rfl⟩
    | list ha =>
      cases hb with
      | same =>
        cases b with
        | list ys => exact comparedAs_list ih ha (.refl ys) hfree
        | _ => exact ⟨rfl, rfl⟩
      | list hb => exact comparedAs_list ih ha hb hfree
      | pattern | mapping => exact ⟨rfl, rfl⟩
    | @mapping es es' ha =>
      have hvalues : ∀ e ∈ es, Insensitive e.2 := fun e he => ih e.2 (List.mem_map_of_mem he)
      cases hb with
      | same =>
        cases b with
        | map kind gs => exact comparedAs_map rfl hvalues ha (.refl gs) hfree
        | _ => exact ⟨rfl, rfl⟩
      | mapping hb => exact comparedAs_map rfl hvalues ha hb hfree
      | pattern | list => exact ⟨rfl, rfl⟩

end Value

/-- **Equality with a value without patterns does not tell the forms apart**, on either side. -/
theorem equals_storedAs {v c c' : Value} (hv : v.PatternFree) (hc : StoredAs c c') :
    v.equals c = v.equals c' ∧ c.equals v = c'.equals v := by
  obtain ⟨hsame, hdisturbs⟩ := Value.insensitive v v c c' (.same v) hc (.inl hv)
  obtain ⟨hsame', hdisturbs'⟩ := Value.insensitive c c' v v hc (.same v) (.inr hv)
  constructor
  · rw [Value.equals, Value.equals, hsame, hdisturbs]
  · rw [Value.equals, Value.equals, hsame', hdisturbs']

end FileDepot
