import FileDepot.Proofs.Logging.Guarded
import FileDepot.Proofs.Steps

/-!
# Configurations stay guarded in use

Taking an item into use may follow references from one part of a configuration to another. Each of the steps on the
way leaves a guarded configuration guarded, so that a reference may go astray without harm to what is outside of the
parts.

Contents:

* `Draft.Yields` — steps that keep the invariant and give an item;
* `Draft.Takes` — a way of taking items that keeps the invariant;
* `Draft.takeWithin_firm`, `Draft.entry_top_answers`, `Draft.sectionOf_answers` — what is there for the asking;
* `Draft.takes_take` — taking an item into use keeps the invariant, by the depth to which references are followed;
* `Draft.maintains_entry`, `Draft.maintains_entryOr`, `Draft.maintains_pop` — single entries of a part;
* `Draft.maintains_entryOr_top`, `Draft.maintains_pop_top`, `Draft.maintains_sectionOf` — the entries of the
  configuration itself, which never fail.
-/

namespace FileDepot

open Step

namespace Draft

variable {K : Value → Prop} {d : Draft}

/-- A step leaves a guarded configuration guarded, and gives an item that does not stand for the configuration. -/
abbrev Yields (K : Value → Prop) (m : DraftM Item) : Prop :=
  Maintains (Guarded K) Item.Inner (fun _ => True) m

/-! ## Tables, rows and single entries -/

section

variable {E : DraftFault → Prop}

theorem addTable_run (es : TableEntries) (d : Draft) :
    (addTable es).run d = (.ok d.tables.size, { d with tables := d.tables.push es }) := rfl

theorem addRow_run (is : List Item) (d : Draft) :
    (addRow is).run d = (.ok (.row d.rows.size), { d with rows := d.rows.push is }) := rfl

theorem maintains_addTable {es : TableEntries} (hes : ∀ e ∈ es, e.2.Inner) :
    Maintains (Guarded K) (· ≠ topNumber) E (addTable es) := by
  intro d hd
  rw [addTable_run]
  refine ⟨hd.push hes, ?_, fun e he => nomatch he⟩
  intro n hn
  obtain rfl := Except.ok.inj hn
  exact Nat.ne_of_gt hd.top

theorem maintains_addRow {is : List Item} (his : ∀ i ∈ is, i.Inner) :
    Maintains (Guarded K) Item.Inner E (addRow is) := by
  intro d hd
  rw [addRow_run]
  refine ⟨hd.withRows ?_, ?_, fun e he => nomatch he⟩
  · intro n i hi
    rw [Array.getElem?_push] at hi
    split at hi
    · exact his i hi
    · exact hd.rows n i hi
  · intro i hi
    obtain rfl := Except.ok.inj hi
    exact Item.inner_of_entries?_eq_none rfl

theorem maintains_look {i : Item} (hi : i.Inner) : Maintains (Guarded K) Item.Inner E (look i) := by
  unfold look
  split
  · exact (maintains_addTable (inner_plainEntries _)).bind fun n hn => .pure (Item.inner_of_number hn).2.2
  · exact (maintains_addTable (inner_plainEntries _)).bind fun n hn => .pure (Item.inner_of_number hn).2.1
  · exact .pure hi

/-- How an item is taken: the invariant stays, and what can be taken whatever else a configuration says stays so. -/
structure Takes (K : Value → Prop) (takeItem : Item → DraftM Item) : Prop where
  maintains : ∀ i, i.Inner → Yields K (takeItem i)
  firm : ∀ d i i', d.Guarded K → i.Firm K d → ((takeItem i).run d).1 = .ok i' →
    i'.Firm K ((takeItem i).run d).2

/-- An entry is taken into use, and stays so. -/
theorem entryWith_run (takeItem : Item → DraftM Item) (n : Nat) (key : Value) (d : Draft) :
    (entryWith takeItem n key).run d =
      match d.find? n key with
      | none => (.error .missing, d)
      | some i =>
        match (takeItem i).run d with
        | (.ok i, d) => (.ok i, d.put n key i)
        | (.error f, d) => (.error f, d) := by
  unfold entryWith
  rw [run_bind, run_get]
  simp only
  cases d.find? n key with
  | none => rfl
  | some i =>
    simp only
    rw [run_bind]
    rcases (takeItem i).run d with ⟨answer, d'⟩
    cases answer <;> rfl

variable {takeItem : Item → DraftM Item}

/-- An entry is taken by a step that keeps the invariant, and so does putting it back. -/
theorem maintains_entryWith_of {n : Nat} {key : Value}
    (htake : ∀ i, i.Inner → Yields K (takeItem i))
    (hput : ∀ d d' i i', d.Guarded K → d.find? n key = some i → (takeItem i).run d = (.ok i', d') → d'.Guarded K →
      i'.Inner → (d'.put n key i').Guarded K) :
    Yields K (entryWith takeItem n key) := by
  intro d hd
  rw [entryWith_run]
  cases hfind : d.find? n key with
  | none => exact ⟨hd, fun i hi => (nomatch hi), fun _ _ => trivial⟩
  | some i =>
    obtain ⟨hleft, hanswer, -⟩ := htake i (hd.find? hfind) d hd
    simp only
    rcases hrun : (takeItem i).run d with ⟨answer, d'⟩
    rw [hrun] at hleft hanswer
    cases answer with
    | error f => exact ⟨hleft, fun i' hi' => (nomatch hi'), fun _ _ => trivial⟩
    | ok i' =>
      refine ⟨hput d d' i i' hd hfind hrun hleft (hanswer i' rfl), ?_, fun _ _ => trivial⟩
      intro i'' hi''
      exact hanswer i'' hi''

/-- An entry of a table other than the configuration itself. -/
theorem maintains_entryWith (htake : ∀ i, i.Inner → Yields K (takeItem i))
    {n : Nat} (hn : n ≠ topNumber) {key : Value} (hkey : K key) :
    Yields K (entryWith takeItem n key) :=
  maintains_entryWith_of htake fun _ _ _ _ _ _ _ hd' hi' => hd'.put hn hkey hi'

/-- An entry of the configuration itself. -/
theorem maintains_entryWith_top (htake : Takes K takeItem) (key : String) :
    Yields K (entryWith takeItem topNumber (.text key)) := by
  refine maintains_entryWith_of htake.maintains fun d d' i i' hd hfind hrun hd' hi' => hd'.put_top hi' fun hkey => ?_
  have hfirm := htake.firm d i i' hd (hd.firm key hkey i hfind)
  rw [hrun] at hfirm
  exact hfirm rfl

theorem maintains_entryAt (htake : Takes K takeItem) {a : Access} (ha : a.number ≠ topNumber) {key : Value}
    (hkey : K key) : Yields K (entryAt takeItem a key) := by
  unfold entryAt
  refine maintains_entryWith (fun i hi => ?_) ha hkey
  split
  · exact htake.maintains i hi
  · exact maintains_look hi

theorem maintains_rowItemWith (htake : Takes K takeItem) (n index : Nat) :
    Yields K (rowItemWith takeItem n index) := by
  unfold rowItemWith
  refine Maintains.get.bind fun d hd => ?_
  split
  · exact .throw trivial
  · next i hi =>
    refine (htake.maintains i (hd.rows n i (List.mem_of_getElem? hi))).bind fun i' hi' => ?_
    exact .bind (.modify fun d hd => hd.setItem hi' n index) fun _ _ => .pure hi'

/-- A table of entries is added to what can be taken into use. -/
theorem firm_push (hd : d.Guarded K) {es : TableEntries} (hes : ∀ e ∈ es, K e.1) {i : Item}
    (hi : i = .table d.tables.size ∨ i = .view d.tables.size) :
    i.Firm K { d with tables := d.tables.push es } := by
  have hfirm : d.tables.size ≠ topNumber ∧ d.tables.size < (d.tables.push es).size ∧
      ∀ e ∈ ({ d with tables := d.tables.push es } : Draft).entries d.tables.size, K e.1 := by
    refine ⟨Nat.ne_of_gt hd.top, ?_, ?_⟩
    · rw [Array.size_push]
      exact Nat.lt_succ_self _
    · rw [entries_push, if_pos rfl]
      exact hes
  rcases hi with rfl | rfl <;> exact hfirm

/-- What can be taken into use whatever else a configuration says is taken, and stays so. -/
theorem takeWithin_firm {i : Item} (hd : d.Guarded K) (hfirm : i.Firm K d) (depth : Nat) :
    ∃ i' d', (takeWithin (depth + 1) i).run d = (.ok i', d') ∧ i'.Firm K d' := by
  have hplain : ∀ es : Entries, (∀ e ∈ es, K e.1) → ∀ e ∈ plainEntries es, K e.1 := by
    intro es hes e he
    obtain ⟨f, hf, rfl⟩ := List.mem_map.mp he
    exact hes f hf
  unfold takeWithin
  split
  · exact ⟨_, _, rfl, firm_push hd (hplain _ hfirm) (.inr rfl)⟩
  · exact ⟨_, _, rfl, firm_push hd (hplain _ hfirm) (.inl rfl)⟩
  · exact ⟨_, _, rfl, firm_push hd hfirm.2.2 (.inl rfl)⟩
  · exact hfirm.elim
  · exact hfirm.elim
  · next v hview hmap hlist htuple =>
    have hnone : v.text?.bind Reference.ofText? = none := by
      cases v with
      | map kind es => exact absurd rfl (hmap kind es)
      | list vs => exact hfirm.elim
      | tuple vs => exact hfirm.elim
      | _ => exact hfirm.1
    rw [hnone]
    exact ⟨_, _, rfl, hfirm⟩
  · exact ⟨_, _, rfl, hfirm⟩

/-- An entry of the configuration itself that can be taken is there for the asking. -/
theorem entry_top_answers {key : String} {i : Item} (hd : d.Guarded K)
    (hfind : d.find? topNumber (.text key) = some i) (hfirm : i.Firm K d) :
    ∃ i' d', (entry top (.text key)).run d = (.ok i', d') ∧ i'.Firm K d' := by
  obtain ⟨i', d', hrun, hfirm'⟩ := takeWithin_firm hd hfirm (referenceLimit - 1)
  refine ⟨i', d'.put topNumber (.text key) i', ?_, firm_put_top hfirm' _ _⟩
  show (entryWith take topNumber (.text key)).run d = _
  rw [entryWith_run, hfind]
  simp only
  rw [show (take i).run d = _ from hrun]

/-- A section of the configuration is there for the asking. -/
theorem sectionOf_answers {key : String} (hkey : key ∈ firmNames) (hd : d.Guarded K) :
    ∃ i d', (sectionOf key).run d = (.ok i, d') ∧ i.Firm K d' := by
  unfold sectionOf
  rw [run_bind, run_get]
  simp only
  cases hfind : d.find? top.number (.text key) with
  | none =>
    refine ⟨_, _, rfl, firm_put_top ?_ _ _⟩
    exact firm_push hd (List.forall_mem_nil _) (.inl rfl)
  | some i => exact entry_top_answers hd hfind (hd.firm key hkey i hfind)

/-- The keys that a reference can name, and those of the configuration's own parts, are as `K` says. -/
def Covers (K : Value → Prop) : Prop :=
  (∀ v : Value, v.text?.isSome = true → K v) ∧ ∀ n : Int, K (.int n)

variable (hK : Covers K)
include hK

theorem maintains_named (htake : Takes K takeItem) {i : Item} (hi : i.Inner) (word : List Char) :
    Yields K (named takeItem i word) := by
  unfold named
  split
  · next a ha => exact maintains_entryAt htake (hi a ha) (hK.1 _ rfl)
  · exact Maintains.get.bind fun _ _ => .throw trivial

theorem maintains_indexed (htake : Takes K takeItem) {i : Item} (hi : i.Inner) (word : List Char) (index : Nat) :
    Yields K (indexed takeItem i word index) := by
  unfold indexed
  split
  · exact maintains_entryAt htake (hi.number (.inl rfl)) (hK.2 _)
  · exact maintains_entryAt htake (hi.number (.inr (.inl rfl))) (hK.2 _)
  · exact maintains_entryAt htake (hi.number (.inr (.inr rfl))) (hK.2 _)
  · exact maintains_rowItemWith htake _ _
  · split
    · exact htake.maintains _ (Item.inner_plain _)
    · exact .throw trivial
  · split
    · split
      · exact maintains_look (Item.inner_plain _)
      · exact .throw trivial
    · exact maintains_named hK htake hi word
  · exact maintains_named hK htake hi word

theorem maintains_step (htake : Takes K takeItem) {i : Item} (hi : i.Inner) (s : PathStep) :
    Yields K (step takeItem i s) := by
  cases s with
  | name word => exact maintains_named hK htake hi word
  | index word =>
    unfold step
    simp only
    split
    · exact maintains_indexed hK htake hi word _
    · exact maintains_named hK htake hi word

theorem maintains_followFrom (htake : Takes K takeItem) (path : List Char) (fuel : Nat) {rest : List Char} {i : Item}
    (hi : i.Inner) : Yields K (followFrom takeItem path fuel rest i) := by
  induction fuel generalizing rest i with
  | zero =>
    cases rest with
    | nil => exact .pure hi
    | cons c rest => exact .pure hi
  | succ fuel ih =>
    cases rest with
    | nil => exact .pure hi
    | cons c rest =>
      unfold followFrom
      split
      · exact .throw trivial
      · exact (maintains_step hK htake hi _).bind fun i' hi' => ih hi'

theorem maintains_follow (htake : Takes K takeItem) (path : List Char) :
    Yields K (follow takeItem path) := by
  unfold follow
  split
  · exact .throw trivial
  · exact (maintains_entryWith_top htake _).bind fun i hi => maintains_followFrom hK htake path _ hi

/-! ## Taking into use -/

theorem maintains_takeWithin (depth : Nat) (hbelow : ∀ n < depth, Takes K (takeWithin n)) {i : Item} (hi : i.Inner) :
    Yields K (takeWithin depth i) := by
  cases depth with
  | zero => exact .throw trivial
  | succ depth =>
    unfold takeWithin
    split
    · exact maintains_look (Item.inner_plain _)
    · exact (maintains_addTable (inner_plainEntries _)).bind fun n hn => .pure (Item.inner_of_number hn).1
    · refine Maintains.get.bind fun d hd => ?_
      exact (maintains_addTable (hd.tables _)).bind fun n hn => .pure (Item.inner_of_number hn).1
    · refine maintains_addRow ?_
      intro i hi
      obtain ⟨v, -, rfl⟩ := List.mem_map.mp hi
      exact Item.inner_plain v
    · exact .pure (Item.inner_of_entries?_eq_none rfl)
    · split
      · exact .pure hi
      · exact maintains_follow hK (hbelow depth (Nat.lt_succ_self depth)) _
      · split
        · exact .pure (Item.inner_plain _)
        · exact .pure (Item.inner_of_entries?_eq_none rfl)
        · exact .throw trivial
    · exact .pure hi

theorem takes_takeWithin (depth : Nat) : Takes K (takeWithin depth) := by
  -- a reference leads to items that are taken with less depth, by any number of words
  induction depth using Nat.strongRecOn with
  | _ depth ih =>
    refine ⟨fun i hi => maintains_takeWithin hK depth ih hi, ?_⟩
    intro d i i' hd hfirm hanswer
    cases depth with
    | zero => cases hanswer
    | succ depth =>
      obtain ⟨j, d', hrun, hj⟩ := takeWithin_firm hd hfirm depth
      rw [hrun] at hanswer ⊢
      obtain rfl := Except.ok.inj hanswer
      exact hj

theorem takes_take : Takes K take := takes_takeWithin hK referenceLimit

/-! ## Entries -/

/-- An entry of a part. -/
theorem maintains_entry {a : Access} (ha : a.number ≠ topNumber) {key : Value} (hkey : K key) :
    Yields K (entry a key) :=
  maintains_entryAt (takes_take hK) ha hkey

theorem maintains_entryOr {a : Access} (ha : a.number ≠ topNumber) (key : String) {absent : Item}
    (habsent : absent.Inner) : Yields K (entryOr a key absent) := by
  unfold entryOr
  refine Maintains.get.bind fun d _ => ?_
  split
  · exact maintains_entry hK ha (hK.1 _ rfl)
  · exact .pure habsent

/-- An entry is taken out of a part. -/
theorem maintains_pop (a : Access) (key : String) {absent : Item} (habsent : absent.Inner) :
    Yields K (pop a key absent) := by
  unfold pop
  refine Maintains.get.bind fun d hd => ?_
  split
  · exact .pure habsent
  · next i hfind =>
    have hi : i.Inner := hd.find? hfind
    refine .bind (.modify fun d' hd' => hd'.erase a.number key) fun _ _ => ?_
    split
    · exact (takes_take hK).maintains i hi
    · exact maintains_look hi

/-- An entry of the configuration itself, or what stands in for it. -/
theorem maintains_entryOr_top {E : DraftFault → Prop} {key : String} (hkey : key ∈ firmNames) {absent : Item}
    (habsent : absent.Inner) : Maintains (Guarded K) Item.Inner E (entryOr top key absent) := by
  have hmaintains : Yields K (entryOr top key absent) := by
    unfold entryOr
    refine Maintains.get.bind fun d _ => ?_
    split
    · exact maintains_entryWith_top (takes_take hK) key
    · exact .pure habsent
  -- it never fails, because what stands there is no reference
  refine hmaintains.of_answers ?_
  intro d hd
  unfold entryOr
  rw [run_bind, run_get]
  simp only
  cases hfind : d.find? top.number (.text key) with
  | none => exact ⟨absent, d, rfl⟩
  | some i =>
    obtain ⟨i', d', hrun, -⟩ := entry_top_answers hd hfind (hd.firm key hkey i hfind)
    exact ⟨i', d', hrun⟩

/-- An entry of the configuration itself is taken out. -/
theorem maintains_pop_top {E : DraftFault → Prop} {key : String} (hkey : key ∈ firmNames) {absent : Item}
    (habsent : absent.Inner) : Maintains (Guarded K) Item.Inner E (pop top key absent) := by
  refine (maintains_pop hK top key habsent).of_answers ?_
  intro d hd
  unfold pop
  rw [run_bind, run_get]
  simp only
  cases hfind : d.find? top.number (.text key) with
  | none => exact ⟨absent, d, rfl⟩
  | some i =>
    -- the item is taken after its entry has gone, and is as good as before
    have hfirm := firm_erase (hd.firm key hkey i hfind) topNumber (.text key)
    obtain ⟨i', d', hrun, -⟩ := takeWithin_firm (hd.erase topNumber key) hfirm (referenceLimit - 1)
    exact ⟨i', d', hrun⟩

/-- A section of the configuration. -/
theorem maintains_sectionOf {E : DraftFault → Prop} {key : String} (hkey : key ∈ firmNames) :
    Maintains (Guarded K) Item.Inner E (sectionOf key) := by
  have hmaintains : Yields K (sectionOf key) := by
    intro d hd
    unfold sectionOf
    rw [run_bind, run_get]
    simp only
    cases hfind : d.find? top.number (.text key) with
    | none =>
      have hnumber : d.tables.size ≠ topNumber := Nat.ne_of_gt hd.top
      have hpush : ({ d with tables := d.tables.push [] } : Draft).Guarded K := hd.push (List.forall_mem_nil _)
      have hfirm := firm_push hd (List.forall_mem_nil _) (.inl rfl)
      refine ⟨hpush.put_top (Item.inner_of_number hnumber).1 fun _ => hfirm, ?_, fun _ _ => trivial⟩
      intro i hi
      obtain rfl := Except.ok.inj hi
      exact (Item.inner_of_number hnumber).1
    | some i => exact maintains_entryWith_top (takes_take hK) key d hd
  -- it never fails, because what stands there is no reference
  refine hmaintains.of_answers ?_
  intro d hd
  obtain ⟨i, d', hrun, -⟩ := sectionOf_answers hkey hd
  exact ⟨i, d', hrun⟩

end

end Draft

end FileDepot
