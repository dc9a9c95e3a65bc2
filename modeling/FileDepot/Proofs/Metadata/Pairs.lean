import FileDepot.Metadata.Pairs
import FileDepot.Proofs.Answers
import FileDepot.Proofs.Text.Splitting
import Mathlib.Data.List.Forall2
import Mathlib.Data.List.Induction

/-!
# Metadata pairs read exactly

A list of texts is read when each of them has a key in front of its first equals sign, and what is
read has each key once, at the place of its first text and with the value of its last one.

Contents:

* `IsPair`, `Spells` — a text with a key, and the key and the value that it spells;
* `split?_eq_some`, `split?_eq_none`, `Spells.unique` — a text is split into what it spells;
* `map_fst_set`, `mem_set` — what a pair that is put in adds to the keys and to the pairs;
* `LastSpelled`, `lastSpelled_concat` — the value that the last text of a key spells;
* `Gathered`, `Gathered.concat` — the pairs of a list of texts, and of the list with one text more;
* `readInto_eq_error`, `gathered_of_read`, `read_joined` — the first text that is refused, what is read of
  a list, and pairs that are read back from their own texts;
* `read_pairs` — all of it.
-/

namespace FileDepot.MetadataPairs

/-! ## The pair of one text -/

/-- An equals sign stands in the text, and what is in front of the first one is not blank. -/
def IsPair (item : String) : Prop :=
  ∃ front value, item.toList = front ++ '=' :: value ∧ '=' ∉ front ∧ Text.hasContent front = true

/-- The key is the text in front of the first equals sign without the blanks around it, which leave
something, and the value is all that is behind that sign. -/
def Spells (item key value : String) : Prop :=
  ∃ front, item.toList = front ++ '=' :: value.toList ∧ '=' ∉ front ∧ Text.hasContent front = true ∧
    key = String.ofList (Text.strip front)

theorem isPair_iff {item : String} : IsPair item ↔ ∃ key value, Spells item key value := by
  constructor
  · rintro ⟨front, value, hitem, hfront, hcontent⟩
    exact ⟨_, String.ofList value, front, by rw [hitem, String.toList_ofList], hfront, hcontent, rfl⟩
  · rintro ⟨key, value, front, hitem, hfront, hcontent, -⟩
    exact ⟨front, value.toList, hitem, hfront, hcontent⟩

theorem split?_eq_some {item key value : String} :
    split? item = some (key, value) ↔ Spells item key value := by
  unfold split? Spells
  constructor
  · intro h
    split at h
    case h_1 => cases h
    case h_2 front behind hcut =>
      obtain ⟨hitem, hfront⟩ := Text.cutAt?_eq_some.mp hcut
      by_cases hempty : Text.strip front = []
      · simp [hempty] at h
      · have hkey : (Text.strip front).isEmpty = false := by simpa using hempty
        simp only [hkey, Bool.false_eq_true, if_false, Option.some.injEq, Prod.mk.injEq] at h
        obtain ⟨rfl, rfl⟩ := h
        exact ⟨front, by rw [hitem, String.toList_ofList], hfront,
          Text.hasContent_iff_strip_ne_nil.mpr hempty, rfl⟩
  · rintro ⟨front, hitem, hfront, hcontent, rfl⟩
    have hcut : Text.cutAt? '=' item.toList = some (front, value.toList) :=
      Text.cutAt?_eq_some.mpr ⟨hitem, hfront⟩
    have hkey : (Text.strip front).isEmpty = false := by
      simpa using Text.hasContent_iff_strip_ne_nil.mp hcontent
    simp [hcut, hkey]

theorem split?_eq_none {item : String} : split? item = none ↔ ¬ IsPair item := by
  rw [isPair_iff, Option.eq_none_iff_forall_ne_some]
  constructor
  · rintro h ⟨key, value, hspells⟩
    exact h (key, value) (split?_eq_some.mpr hspells)
  · rintro h ⟨key, value⟩ hsplit
    exact h ⟨key, value, split?_eq_some.mp hsplit⟩

/-- A text spells one key and one value. -/
theorem Spells.unique {item key key' value value' : String} (h : Spells item key value)
    (h' : Spells item key' value') : key = key' ∧ value = value' := by
  have heq := (split?_eq_some.mpr h).symm.trans (split?_eq_some.mpr h')
  simpa using heq

/-- A key without blanks around it and without equals sign is spelled by the text that starts with it. -/
theorem spells_joined {key : String} (hne : key ≠ "") (hkey : Text.stripped key = key)
    (heq : '=' ∉ key.toList) (value : String) : Spells (key ++ "=" ++ value) key value := by
  refine ⟨key.toList, by simp [String.toList_append], heq, ?_, hkey.symm⟩
  rw [Text.hasContent_iff_strip_ne_nil]
  intro hempty
  exact hne (by rw [← hkey, Text.stripped, hempty])

/-! ## One pair put in -/

/-- A new key comes last; the keys stay as they are where the key is there. -/
theorem map_fst_set (key value : String) (pairs : List (String × String)) :
    (set key value pairs).map Prod.fst =
      if key ∈ pairs.map Prod.fst then pairs.map Prod.fst else pairs.map Prod.fst ++ [key] := by
  induction pairs with
  | nil => simp [set]
  | cons p pairs ih =>
    by_cases hp : p.1 = key
    · simp [set, hp]
    · rw [set, if_neg hp, List.map_cons, ih]
      by_cases hmem : key ∈ pairs.map Prod.fst
      · rw [if_pos hmem, List.map_cons, if_pos (List.mem_cons_of_mem _ hmem)]
      · rw [if_neg hmem, List.map_cons, if_neg (by simpa [Ne.symm hp] using hmem), List.cons_append]

theorem set_of_new {key : String} (value : String) {pairs : List (String × String)}
    (h : key ∉ pairs.map Prod.fst) : set key value pairs = pairs ++ [(key, value)] := by
  induction pairs with
  | nil => rfl
  | cons p pairs ih =>
    obtain ⟨hp, hpairs⟩ : key ≠ p.1 ∧ key ∉ pairs.map Prod.fst := by simpa using h
    rw [set, if_neg (Ne.symm hp), ih hpairs, List.cons_append]

/-- Among distinct keys, the pair that is put in takes the place of the one with its key. -/
theorem mem_set {key value k v : String} {pairs : List (String × String)}
    (hnodup : (pairs.map Prod.fst).Nodup) :
    (k, v) ∈ set key value pairs ↔ (k = key ∧ v = value) ∨ (k ≠ key ∧ (k, v) ∈ pairs) := by
  induction pairs with
  | nil => simp [set]
  | cons p pairs ih =>
    obtain ⟨first, w⟩ := p
    obtain ⟨hfirst, hrest⟩ : first ∉ pairs.map Prod.fst ∧ (pairs.map Prod.fst).Nodup :=
      List.nodup_cons.mp hnodup
    by_cases hkey : first = key
    · subst hkey
      have hne : (k, v) ∈ pairs → k ≠ first := by
        rintro hmem rfl
        exact hfirst (List.mem_map_of_mem hmem)
      rw [set, if_pos rfl, List.mem_cons, List.mem_cons, Prod.mk.injEq, Prod.mk.injEq]
      grind
    · rw [set, if_neg hkey, List.mem_cons, List.mem_cons, ih hrest, Prod.mk.injEq]
      grind

/-! ## The last text of a key -/

/-- Some text of the list spells the key and the value, and none behind it spells the key. -/
def LastSpelled (items : List String) (key value : String) : Prop :=
  ∃ before item after, items = before ++ item :: after ∧ Spells item key value ∧
    ∀ later ∈ after, ∀ v, ¬ Spells later key v

/-- One text more is the last one of its key, and leaves the others' last ones as they are. -/
theorem lastSpelled_concat {items : List String} {item key value k v : String}
    (hitem : Spells item key value) :
    LastSpelled (items ++ [item]) k v ↔ (k = key ∧ v = value) ∨ (k ≠ key ∧ LastSpelled items k v) := by
  constructor
  · rintro ⟨before, found, after, hitems, hfound, hlater⟩
    rcases List.eq_nil_or_concat after with rfl | ⟨after, last, rfl⟩
    · obtain ⟨-, hlast⟩ := List.append_inj' hitems rfl
      obtain rfl : item = found := by simpa using hlast
      exact .inl (hfound.unique hitem)
    · have hsplit : items ++ [item] = (before ++ found :: after) ++ [last] := by simpa using hitems
      obtain ⟨rfl, hlast⟩ := List.append_inj' hsplit rfl
      obtain rfl : item = last := by simpa using hlast
      refine .inr ⟨?_, before, found, after, rfl, hfound, fun l hl => hlater l (by simp [hl])⟩
      rintro rfl
      exact hlater item (by simp) value hitem
  · rintro (⟨rfl, rfl⟩ | ⟨hne, before, found, after, rfl, hfound, hlater⟩)
    · exact ⟨items, item, [], rfl, hitem, by simp⟩
    · refine ⟨before, found, after ++ [item], by simp, hfound, fun later hmem w hw => ?_⟩
      rcases List.mem_append.mp hmem with hmem | hmem
      · exact hlater later hmem w hw
      · obtain rfl : later = item := by simpa using hmem
        exact hne (hw.unique hitem).1

/-! ## The pairs of a list -/

/-- What is read of a list of texts. -/
structure Gathered (items : List String) (pairs : List (String × String)) : Prop where
  /-- The keys that the texts spell, each at the place where it is spelled first. -/
  keys : ∃ spelled, List.Forall₂ (fun item key => ∃ value, Spells item key value) items spelled ∧
    pairs.map Prod.fst = spelled.eraseDups
  /-- No key comes twice. -/
  distinct : (pairs.map Prod.fst).Nodup
  /-- Each key has the value that its last text spells. -/
  values : ∀ key value, (key, value) ∈ pairs ↔ LastSpelled items key value

theorem gathered_nil : Gathered [] [] where
  keys := ⟨[], .nil, rfl⟩
  distinct := List.nodup_nil
  values := by simp [LastSpelled]

theorem eraseDups_concat (keys : List String) (key : String) :
    (keys ++ [key]).eraseDups = if key ∈ keys.eraseDups then keys.eraseDups else keys.eraseDups ++ [key] := by
  rw [List.eraseDups_append]
  by_cases hmem : key ∈ keys
  · simp [List.removeAll, hmem]
  · simp [List.removeAll, hmem, List.eraseDups_cons]

/-- **One text more** puts in the pair that it spells. -/
theorem Gathered.concat {items : List String} {pairs : List (String × String)} {item key value : String}
    (h : Gathered items pairs) (hitem : Spells item key value) :
    Gathered (items ++ [item]) (set key value pairs) where
  keys := by
    obtain ⟨spelled, hspelled, hkeys⟩ := h.keys
    refine ⟨spelled ++ [key], List.rel_append hspelled (.cons ⟨value, hitem⟩ .nil), ?_⟩
    rw [map_fst_set, eraseDups_concat, hkeys]
  distinct := by
    rw [map_fst_set]
    split
    case isTrue => exact h.distinct
    case isFalse hnew => exact List.nodup_append.mpr ⟨h.distinct, by simp, by grind⟩
  values k v := by rw [mem_set h.distinct, lastSpelled_concat hitem, h.values]

/-! ## Reading -/

theorem readInto_concat (done : List (String × String)) (items : List String) (item : String) :
    readInto done (items ++ [item]) =
      (readInto done items).bind fun pairs =>
        match split? item with
        | some (key, value) => .ok (set key value pairs)
        | none => .error (refusal item) := by
  induction items generalizing done with
  | nil =>
    rw [List.nil_append, readInto, readInto]
    cases split? item <;> rfl
  | cons first items ih =>
    rw [List.cons_append, readInto, readInto]
    cases split? first with
    | none => rfl
    | some pair => exact ih _

/-- The first text that is no pair is what a list is refused for. -/
theorem readInto_eq_error {done : List (String × String)} {items : List String} {f : Failure} :
    readInto done items = .error f ↔
      ∃ before item after, items = before ++ item :: after ∧ (∀ i ∈ before, IsPair i) ∧ ¬ IsPair item ∧
        f = refusal item := by
  induction items generalizing done with
  | nil => simp [readInto]
  | cons first items ih =>
    rw [readInto]
    cases hsplit : split? first with
    | none =>
      have hfirst := split?_eq_none.mp hsplit
      constructor
      · intro h
        exact ⟨[], first, items, rfl, by simp, hfirst, (Except.error.inj h).symm⟩
      · rintro ⟨before, item, after, hitems, hbefore, -, rfl⟩
        cases before with
        | nil =>
          obtain ⟨rfl, -⟩ := List.cons.inj hitems
          rfl
        | cons b before =>
          obtain ⟨rfl, -⟩ := List.cons.inj hitems
          exact absurd (hbefore first List.mem_cons_self) hfirst
    | some pair =>
      have hfirst : IsPair first := isPair_iff.mpr ⟨pair.1, pair.2, split?_eq_some.mp hsplit⟩
      rw [ih]
      constructor
      · rintro ⟨before, item, after, rfl, hbefore, hitem, rfl⟩
        exact ⟨first :: before, item, after, rfl, List.forall_mem_cons.mpr ⟨hfirst, hbefore⟩, hitem, rfl⟩
      · rintro ⟨before, item, after, hitems, hbefore, hitem, rfl⟩
        cases before with
        | nil =>
          obtain ⟨rfl, -⟩ := List.cons.inj hitems
          exact absurd hfirst hitem
        | cons b before =>
          obtain ⟨rfl, rfl⟩ := List.cons.inj hitems
          exact ⟨before, item, after, rfl, (List.forall_mem_cons.mp hbefore).2, hitem, rfl⟩

/-- **What is read** of a list is what its texts spell. -/
theorem gathered_of_read {items : List String} {pairs : List (String × String)}
    (h : read items = .ok pairs) : Gathered items pairs := by
  -- from behind: the invariant says what all texts so far have spelled
  induction items using List.reverseRecOn generalizing pairs with
  | nil =>
    obtain rfl : [] = pairs := Except.ok.inj h
    exact gathered_nil
  | append_singleton items item ih =>
    unfold read at h ih
    rw [readInto_concat] at h
    cases hread : readInto [] items with
    | error f => rw [hread] at h; cases h
    | ok before =>
      rw [hread] at h
      cases hsplit : split? item with
      | none => simp [Except.bind, hsplit] at h
      | some pair =>
        obtain rfl : set pair.1 pair.2 before = pairs := by simpa [Except.bind, hsplit] using h
        exact (ih hread).concat (split?_eq_some.mp hsplit)

/-- A list is read exactly when all of its texts are pairs. -/
theorem read_isOk_iff {items : List String} :
    (∃ pairs, read items = .ok pairs) ↔ ∀ item ∈ items, IsPair item := by
  constructor
  · rintro ⟨pairs, hread⟩ item hmem
    obtain ⟨spelled, hspelled, -⟩ := (gathered_of_read hread).keys
    obtain ⟨key, -, value, hitem⟩ := exists_related_left hspelled.flip hmem
    exact isPair_iff.mpr ⟨key, value, hitem⟩
  · intro h
    cases hread : read items with
    | ok pairs => exact ⟨pairs, rfl⟩
    | error f =>
      obtain ⟨before, item, after, rfl, -, hitem, -⟩ := readInto_eq_error.mp hread
      exact absurd (h item (by simp)) hitem

/-- The texts of distinct keys that can be spelled are read back, in their order. -/
theorem read_joined {pairs : List (String × String)} (hdistinct : (pairs.map Prod.fst).Nodup)
    (hkeys : ∀ p ∈ pairs, p.1 ≠ "" ∧ Text.stripped p.1 = p.1 ∧ '=' ∉ p.1.toList) :
    read (pairs.map fun p => p.1 ++ "=" ++ p.2) = .ok pairs := by
  induction pairs using List.reverseRecOn with
  | nil => rfl
  | append_singleton pairs p ih =>
    obtain ⟨hbefore, -, hnew⟩ := List.nodup_append.mp (List.map_append ▸ hdistinct)
    have hread := ih hbefore fun q hq => hkeys q (List.mem_append_left _ hq)
    obtain ⟨hne, hstripped, hequals⟩ := hkeys p (by simp)
    have hsplit := split?_eq_some.mpr (spells_joined hne hstripped hequals p.2)
    have hkey : p.1 ∉ pairs.map Prod.fst := fun hmem => hnew p.1 hmem p.1 (by simp) rfl
    unfold read at hread ⊢
    rw [List.map_append, List.map_singleton, readInto_concat, hread]
    simp only [Except.bind, hsplit, set_of_new p.2 hkey]

/-- **Pairs are read exactly.** A list of texts is read when each of them has an equals sign with a
character that is not blank in front of the first one, and is otherwise refused with the first text
that has not. What is read has the stripped keys, each once and in the order of their first texts,
each with all that stands behind the first equals sign of its last text. So what is made of distinct
keys without blanks around them and without equals signs is read back as it was. -/
theorem read_pairs (items : List String) :
    ((∃ pairs, read items = .ok pairs) ↔ ∀ item ∈ items, IsPair item) ∧
    (∀ f, read items = .error f → ∃ before item after, items = before ++ item :: after ∧
      (∀ i ∈ before, IsPair i) ∧ ¬ IsPair item ∧
      f = .invalid s!"Invalid metadata entry '{item}', expected KEY=VALUE") ∧
    (∀ pairs, read items = .ok pairs → Gathered items pairs) ∧
    (∀ pairs : List (String × String), (pairs.map Prod.fst).Nodup →
      (∀ p ∈ pairs, p.1 ≠ "" ∧ Text.stripped p.1 = p.1 ∧ '=' ∉ p.1.toList) →
      read (pairs.map fun p => p.1 ++ "=" ++ p.2) = .ok pairs) :=
  ⟨read_isOk_iff, fun _ h => readInto_eq_error.mp h, fun _ => gathered_of_read,
    fun _ hdistinct hkeys => read_joined hdistinct hkeys⟩

/-- A key that is spelled twice keeps its place and takes its last value; values keep their equals signs. -/
theorem read_pairs_overwritten :
    Gathered [" a =1", "b=x=y", "a= 2"] [("a", " 2"), ("b", "x=y")] :=
  (read_pairs [" a =1", "b=x=y", "a= 2"]).2.2.1 _ (by decide)

end FileDepot.MetadataPairs
