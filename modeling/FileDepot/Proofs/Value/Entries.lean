import FileDepot.Value.Compare
import Mathlib.Data.List.Induction

/-!
# Mappings made of pairs

A mapping is a list of entries no two keys of which are equal. Pairs put into it one after another keep the
place of their first key and the value of their last one.

Contents:

* `lookup_pair` — what a name leads to in a list of pairs;
* `Value.same_text`, `Value.text?_of_same` — what equals a text;
* `Entries.Distinct` — no two keys are equal;
* `Entries.put_cases` — what putting an entry does;
* `Entries.distinct_ofPairs`, `Entries.mem_ofPairs` — what pairs make is a mapping of their keys and values;
* `Entries.ofPairs_eq_self` — a mapping is made of its own entries;
* `Entries.Related` — entries with the same keys and related values;
* `Entries.get?_put` — what a text leads to when an entry has been put;
* `Entries.mem_ofPairs_iff` — pairs only one key of which is repeated: its last value counts.
-/

namespace FileDepot

theorem lookup_pair {α : Type} (name : String) (e : String × α) (es : List (String × α)) :
    (e :: es).lookup name = if name = e.1 then some e.2 else es.lookup name := by
  rw [List.lookup_cons]
  by_cases hname : name = e.1
  · rw [if_pos hname, beq_iff_eq.mpr hname]
  · rw [if_neg hname, beq_eq_false_iff_ne.mpr hname]

/-- A value equals one that spells a text exactly if it spells that text. -/
theorem Value.same_of_text? {v w : Value} {s : String} (h : w.text? = some s) :
    v.same w = (v.text? == some s) := by
  cases w with
  | text t | textMember t =>
    obtain rfl := Option.some.inj h
    cases v with
    | text u | textMember u => simp [same, text?, Bool.beq_comm]
    | foreign f => simp [same, text?]
    | _ => simp [same, sameNumber, number?, isNull, tupleItems?, text?]
  | _ => cases h

/-- A value equals a text exactly if it is one and spells it. -/
theorem Value.same_text (v : Value) (s : String) : v.same (.text s) = (v.text? == some s) :=
  same_of_text? rfl

/-- Equal values spell the same text, or none. -/
theorem Value.text?_of_same {v w : Value} (h : v.same w = true) : v.text? = w.text? := by
  cases hw : w.text? with
  | some s =>
    rw [same_of_text? hw] at h
    exact beq_iff_eq.mp h
  | none =>
    cases v with
    | text s | textMember s => simp [same, hw] at h
    | _ => rfl

namespace Entries

/-- No two keys of the mapping are equal. -/
def Distinct (es : Entries) : Prop :=
  (es.map Prod.fst).Pairwise fun k k' => k.same k' = false

theorem distinct_concat {es : Entries} {e : Value × Value} :
    Distinct (es ++ [e]) ↔ Distinct es ∧ ∀ e' ∈ es, e'.1.same e.1 = false := by
  simp [Distinct, List.pairwise_append]

theorem distinct_append {es es' : Entries} :
    Distinct (es ++ es') ↔
      Distinct es ∧ Distinct es' ∧ ∀ e ∈ es, ∀ e' ∈ es', e.1.same e'.1 = false := by
  simp only [Distinct, List.map_append, List.pairwise_append, List.forall_mem_map]

/-! ## Putting one entry -/

/-- A new key comes last; of an old one the value is replaced. -/
theorem put_cases (k v : Value) (es : Entries) :
    (put k v es = es ++ [(k, v)] ∧ ∀ e ∈ es, e.1.same k = false) ∨
      ∃ front old behind, es = front ++ old :: behind ∧ old.1.same k = true ∧
        put k v es = front ++ (old.1, v) :: behind := by
  induction es with
  | nil => exact .inl ⟨rfl, by simp⟩
  | cons e es ih =>
    obtain ⟨key, old⟩ := e
    rw [put]
    cases hkey : key.same k with
    | true => exact .inr ⟨[], (key, old), es, rfl, hkey, rfl⟩
    | false =>
      rcases ih with ⟨hput, hnew⟩ | ⟨front, e, behind, rfl, he, hput⟩
      · exact .inl ⟨by simp [hput], List.forall_mem_cons.mpr ⟨hkey, hnew⟩⟩
      · exact .inr ⟨(key, old) :: front, e, behind, rfl, he, by simp [hput]⟩

theorem distinct_put {es : Entries} (h : Distinct es) (k v : Value) : Distinct (put k v es) := by
  rcases put_cases k v es with ⟨hput, hnew⟩ | ⟨front, old, behind, rfl, -, hput⟩
  · rw [hput]
    exact distinct_concat.mpr ⟨h, hnew⟩
  · rw [hput]
    simpa [Distinct] using h

theorem put_of_new {k v : Value} {es : Entries} (h : ∀ e ∈ es, e.1.same k = false) :
    put k v es = es ++ [(k, v)] := by
  rcases put_cases k v es with ⟨hput, -⟩ | ⟨front, old, behind, rfl, hold, -⟩
  · exact hput
  · have hdiffers := h old (by simp)
    simp [hold] at hdiffers

/-- In a mapping whose keys are equal only where they are the same, an entry is put in place of the one of
its key. -/
theorem mem_put_iff {k v : Value} {es : Entries} (h : Distinct es)
    (hkey : ∀ e ∈ es, e.1.same k = true → e.1 = k) {e : Value × Value} :
    e ∈ put k v es ↔ (e ∈ es ∧ e.1.same k = false) ∨ e = (k, v) := by
  rcases put_cases k v es with ⟨hput, hnew⟩ | ⟨front, old, behind, rfl, hold, hput⟩
  · rw [hput, List.mem_append, List.mem_singleton]
    exact or_congr_left ⟨fun he => ⟨he, hnew e he⟩, fun he => he.1⟩
  · obtain ⟨-, hbehind, hfront⟩ := distinct_append.mp h
    obtain rfl := hkey old (by simp) hold
    have hbefore : ∀ e ∈ front, e.1.same old.1 = false := fun e he => hfront e he old (by simp)
    have hafter : ∀ e ∈ behind, e.1.same old.1 = false := by
      intro e he
      by_contra hsame
      have hsameKey := hkey e (by simp [he]) (by simpa using hsame)
      have hdiffers := List.rel_of_pairwise_cons hbehind (List.mem_map_of_mem (f := Prod.fst) he)
      rw [hsameKey, hold] at hdiffers
      simp at hdiffers
    rw [hput, List.mem_append, List.mem_cons, List.mem_append, List.mem_cons]
    constructor
    · rintro (he | rfl | he)
      · exact .inl ⟨.inl he, hbefore e he⟩
      · exact .inr rfl
      · exact .inl ⟨.inr (.inr he), hafter e he⟩
    · rintro (⟨he | rfl | he, hdiffers⟩ | rfl)
      · exact .inl he
      · simp [hold] at hdiffers
      · exact .inr (.inr he)
      · exact .inr (.inl rfl)

theorem mem_put {k v : Value} {es : Entries} {e : Value × Value} (h : e ∈ put k v es) :
    (e.1 = k ∨ ∃ e' ∈ es, e'.1 = e.1) ∧ (e.2 = v ∨ ∃ e' ∈ es, e'.2 = e.2) := by
  rcases put_cases k v es with ⟨hput, -⟩ | ⟨front, old, behind, rfl, -, hput⟩
  · rw [hput, List.mem_append, List.mem_singleton] at h
    rcases h with h | rfl
    · exact ⟨.inr ⟨e, h, rfl⟩, .inr ⟨e, h, rfl⟩⟩
    · exact ⟨.inl rfl, .inl rfl⟩
  · rw [hput, List.mem_append, List.mem_cons] at h
    rcases h with h | rfl | h
    · exact ⟨.inr ⟨e, by simp [h], rfl⟩, .inr ⟨e, by simp [h], rfl⟩⟩
    · exact ⟨.inr ⟨old, by simp, rfl⟩, .inl rfl⟩
    · exact ⟨.inr ⟨e, by simp [h], rfl⟩, .inr ⟨e, by simp [h], rfl⟩⟩

/-! ## Putting pairs one after another -/

theorem ofPairs_concat (es : Entries) (e : Value × Value) :
    ofPairs (es ++ [e]) = put e.1 e.2 (ofPairs es) := by
  simp [ofPairs]

/-- Pairs make a mapping. -/
theorem distinct_ofPairs (es : Entries) : Distinct (ofPairs es) := by
  induction es using List.reverseRecOn with
  | nil => exact .nil
  | append_singleton es e ih =>
    rw [ofPairs_concat]
    exact distinct_put ih e.1 e.2

/-- The keys and the values of the mapping that pairs make are keys and values of the pairs. -/
theorem mem_ofPairs {es : Entries} {e : Value × Value} (h : e ∈ ofPairs es) :
    (∃ e' ∈ es, e'.1 = e.1) ∧ ∃ e' ∈ es, e'.2 = e.2 := by
  induction es using List.reverseRecOn generalizing e with
  | nil => simp [ofPairs] at h
  | append_singleton es last ih =>
    rw [ofPairs_concat] at h
    obtain ⟨hkey, hvalue⟩ := mem_put h
    constructor
    · rcases hkey with hkey | ⟨e', he', hkey⟩
      · exact ⟨last, by simp, hkey.symm⟩
      · obtain ⟨e'', he'', hkey'⟩ := (ih he').1
        exact ⟨e'', by simp [he''], hkey'.trans hkey⟩
    · rcases hvalue with hvalue | ⟨e', he', hvalue⟩
      · exact ⟨last, by simp, hvalue.symm⟩
      · obtain ⟨e'', he'', hvalue'⟩ := (ih he').2
        exact ⟨e'', by simp [he''], hvalue'.trans hvalue⟩

/-- A value of the mapping that pairs make stands among the pairs under an equal key, if not under the same. -/
theorem exists_of_mem_ofPairs {es : Entries} {e : Value × Value} (h : e ∈ ofPairs es) :
    ∃ e' ∈ es, e'.2 = e.2 ∧ (e.1 = e'.1 ∨ e.1.same e'.1 = true) := by
  induction es using List.reverseRecOn generalizing e with
  | nil => simp [ofPairs] at h
  | append_singleton es last ih =>
    have earlier (he : e ∈ ofPairs es) : ∃ e' ∈ es ++ [last], e'.2 = e.2 ∧ (e.1 = e'.1 ∨ e.1.same e'.1 = true) := by
      obtain ⟨e', he', hvalue, hkey⟩ := ih he
      exact ⟨e', List.mem_append_left _ he', hvalue, hkey⟩
    rw [ofPairs_concat] at h
    rcases put_cases last.1 last.2 (ofPairs es) with ⟨hput, -⟩ | ⟨front, old, behind, hes, hold, hput⟩
    · rw [hput, List.mem_append, List.mem_singleton] at h
      rcases h with h | rfl
      · exact earlier h
      · exact ⟨last, by simp, rfl, .inl rfl⟩
    · rw [hput, List.mem_append, List.mem_cons] at h
      rcases h with h | rfl | h
      · exact earlier (by simp [hes, h])
      · exact ⟨last, by simp, rfl, .inr hold⟩
      · exact earlier (by simp [hes, h])

/-- A mapping is made of its own entries. -/
theorem ofPairs_eq_self {es : Entries} (h : Distinct es) : ofPairs es = es := by
  induction es using List.reverseRecOn with
  | nil => rfl
  | append_singleton es e ih =>
    obtain ⟨hes, hnew⟩ := distinct_concat.mp h
    rw [ofPairs_concat, ih hes, put_of_new hnew]

/-! ## Values that are related -/

/-- The entries have the same keys in turn, and under each of them values that are related. -/
def Related (R : Value → Value → Value → Prop) : Entries → Entries → Prop :=
  List.Forall₂ fun e g => g.1 = e.1 ∧ R e.1 e.2 g.2

section

variable {R : Value → Value → Value → Prop} (hR : ∀ k k' : Value, k.same k' = true → ∀ v w, R k' v w → R k v w)
include hR

/-- An entry is put in the same place, and keeps the key that is there. -/
theorem Related.put {es gs : Entries} (h : Related R es gs) {k v w : Value} (hvalue : R k v w) :
    Related R (put k v es) (put k w gs) := by
  induction h with
  | nil => exact .cons ⟨rfl, hvalue⟩ .nil
  | @cons e g es gs he hes ih =>
    obtain ⟨key, old⟩ := e
    obtain ⟨key', old'⟩ := g
    obtain ⟨rfl, hold⟩ := he
    show Related R (Entries.put k v ((key', old) :: es)) (Entries.put k w ((key', old') :: gs))
    rw [Entries.put, Entries.put]
    split
    · next hsame => exact .cons ⟨rfl, hR key' k hsame v w hvalue⟩ hes
    · exact .cons ⟨rfl, hold⟩ ih

/-- What pairs make is related if the pairs are. -/
theorem Related.ofPairs {es gs : Entries} (h : Related R es gs) : Related R (ofPairs es) (ofPairs gs) := by
  have hfold : ∀ front behind : Entries, Related R front behind →
      Related R (es.foldl (fun es e => Entries.put e.1 e.2 es) front)
        (gs.foldl (fun gs g => Entries.put g.1 g.2 gs) behind) := by
    induction h with
    | nil => exact fun front behind hstart => hstart
    | @cons e g es gs he hes ih =>
      obtain ⟨k, v⟩ := e
      obtain ⟨key, w⟩ := g
      obtain ⟨rfl, hvalue⟩ := he
      intro front behind hstart
      exact ih _ _ (hstart.put hR hvalue)
  exact hfold [] [] .nil

end

/-! ## Keys that are texts -/

theorem get?_cons (name : String) (e : Value × Value) (es : Entries) :
    get? name (e :: es) = if e.1.text? = some name then some e.2 else get? name es := by
  rw [get?, lookup?, Value.same_text]
  by_cases hkey : e.1.text? = some name
  · rw [if_pos hkey, if_pos (beq_iff_eq.mpr hkey)]
  · rw [if_neg hkey, if_neg fun h => hkey (beq_iff_eq.mp h)]
    rfl

theorem get?_eq_none {name : String} {es : Entries} (h : ∀ e ∈ es, e.1.text? ≠ some name) :
    get? name es = none := by
  induction es with
  | nil => rfl
  | cons e es ih =>
    obtain ⟨he, hes⟩ := List.forall_mem_cons.mp h
    rw [get?_cons, if_neg he, ih hes]

theorem get?_isSome {name : String} {es : Entries} {e : Value × Value} (he : e ∈ es)
    (hkey : e.1.text? = some name) : (get? name es).isSome = true := by
  induction es with
  | nil => cases he
  | cons f es ih =>
    rw [get?_cons]
    rcases List.mem_cons.mp he with rfl | he
    · rw [if_pos hkey]
      rfl
    · split
      · rfl
      · exact ih he

/-- What stands in front counts. -/
theorem get?_append (name : String) (es es' : Entries) :
    get? name (es ++ es') = (get? name es).or (get? name es') := by
  induction es with
  | nil => rfl
  | cons e es ih =>
    rw [List.cons_append, get?_cons, get?_cons, ih]
    split <;> rfl

/-- Putting an entry under a text changes what this text leads to, and nothing else. -/
theorem get?_put (key name : String) (v : Value) (es : Entries) :
    get? name (put (.text key) v es) = if key = name then some v else get? name es := by
  induction es with
  | nil =>
    rw [put, get?_cons]
    simp [Value.text?]
  | cons e es ih =>
    obtain ⟨k, old⟩ := e
    rw [put, Value.same_text]
    by_cases hkey : k.text? = some key
    · rw [if_pos (beq_iff_eq.mpr hkey), get?_cons, get?_cons]
      by_cases hname : key = name <;> simp [hkey, hname]
    · rw [if_neg fun h => hkey (beq_iff_eq.mp h), get?_cons, get?_cons, ih]
      by_cases hname : key = name
      · subst hname
        simp [hkey]
      · simp [hname]

/-! ## One repeated key -/

/-- Only keys of the kind `repeated` are equal to each other, and they are the same key. -/
structure RepeatsOnly (repeated : Value → Bool) (es : Entries) : Prop where
  same : (es.map Prod.fst).Pairwise fun k k' => k.same k' = (repeated k && repeated k')
  one : ∀ e ∈ es, ∀ e' ∈ es, repeated e.1 = true → repeated e'.1 = true → e.1 = e'.1

/-- The last entry of a repeated key. -/
def last? (repeated : Value → Bool) (es : Entries) : Option (Value × Value) :=
  (es.filter fun e => repeated e.1).getLast?

theorem last?_concat (repeated : Value → Bool) (es : Entries) (e : Value × Value) :
    last? repeated (es ++ [e]) = if repeated e.1 then some e else last? repeated es := by
  rw [last?, List.filter_append, List.filter_cons, List.filter_nil]
  cases repeated e.1 <;> simp [last?]

theorem last?_append (repeated : Value → Bool) (es es' : Entries) :
    last? repeated (es ++ es') = (last? repeated es').or (last? repeated es) := by
  rw [last?, List.filter_append, List.getLast?_append]
  rfl

theorem mem_of_last? {repeated : Value → Bool} {es : Entries} {e : Value × Value}
    (h : last? repeated es = some e) : e ∈ es ∧ repeated e.1 = true :=
  List.mem_filter.mp (List.mem_of_getLast? h)

theorem RepeatsOnly.of_concat {repeated : Value → Bool} {es : Entries} {e : Value × Value}
    (h : RepeatsOnly repeated (es ++ [e])) :
    RepeatsOnly repeated es ∧ ∀ e' ∈ es, e'.1.same e.1 = (repeated e'.1 && repeated e.1) := by
  have hsame := h.same
  simp only [List.map_append, List.map_cons, List.map_nil, List.pairwise_append, List.forall_mem_map,
    List.mem_singleton, forall_eq] at hsame
  exact ⟨⟨hsame.1, fun e' he' e'' he'' => h.one e' (by simp [he']) e'' (by simp [he''])⟩, hsame.2.2⟩

/-- **Of a repeated key the last value counts.** The other entries stay as they are. -/
theorem mem_ofPairs_iff {repeated : Value → Bool} {es : Entries} (h : RepeatsOnly repeated es)
    {e : Value × Value} :
    e ∈ ofPairs es ↔ (e ∈ es ∧ repeated e.1 = false) ∨ last? repeated es = some e := by
  induction es using List.reverseRecOn generalizing e with
  | nil => simp [ofPairs, last?]
  | append_singleton es new ih =>
    obtain ⟨hes, hnew⟩ := h.of_concat
    -- the keys put so far are keys of the pairs
    have hsame : ∀ e ∈ ofPairs es, e.1.same new.1 = (repeated e.1 && repeated new.1) := by
      intro e he
      obtain ⟨e', he', hkey⟩ := (mem_ofPairs he).1
      rw [← hkey]
      exact hnew e' he'
    have hone : ∀ e ∈ ofPairs es, e.1.same new.1 = true → e.1 = new.1 := by
      intro e he heq
      obtain ⟨e', he', hkey⟩ := (mem_ofPairs he).1
      rw [hsame e he, Bool.and_eq_true, ← hkey] at heq
      rw [← hkey]
      exact h.one e' (by simp [he']) new (by simp) heq.1 heq.2
    have hput : e ∈ put new.1 new.2 (ofPairs es) ↔
        (e ∈ ofPairs es ∧ (repeated e.1 && repeated new.1) = false) ∨ e = new := by
      rw [mem_put_iff (distinct_ofPairs es) hone]
      refine or_congr_left (and_congr_right fun he => ?_)
      rw [hsame e he]
    have hlast (hlast : last? repeated es = some e) : repeated e.1 = true := (mem_of_last? hlast).2
    rw [ofPairs_concat, hput, ih hes, last?_concat, List.mem_append, List.mem_singleton]
    cases hrepeated : repeated new.1 with
    | false =>
      simp only [Bool.and_false, and_true, Bool.false_eq_true, if_false]
      constructor
      · rintro ((⟨he, hother⟩ | he) | rfl)
        · exact .inl ⟨.inl he, hother⟩
        · exact .inr he
        · exact .inl ⟨.inr rfl, hrepeated⟩
      · rintro (⟨he | rfl, hother⟩ | he)
        · exact .inl (.inl ⟨he, hother⟩)
        · exact .inr rfl
        · exact .inl (.inr he)
    | true =>
      simp only [Bool.and_true, if_true, Option.some.injEq]
      constructor
      · rintro (⟨⟨he, -⟩ | he, hother⟩ | rfl)
        · exact .inl ⟨.inl he, hother⟩
        · simp [hlast he] at hother
        · exact .inr rfl
      · rintro (⟨he | rfl, hother⟩ | rfl)
        · exact .inl ⟨.inl ⟨he, hother⟩, hother⟩
        · simp [hrepeated] at hother
        · exact .inr rfl

end Entries

end FileDepot
