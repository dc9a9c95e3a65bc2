import FileDepot.Proofs.Regex.Reading

/-!
# Bracket classes as texts

A bracket class is written as members between brackets, each of them plain or behind a backslash. Read from
the left, a dash between two members makes a range; at either end of the list it is a member.

Contents:

* `Spelled` — a member as it is written;
* `readMembers` — the items of a list of members, or the first range that runs downwards;
* `run_class`, `readsItem_class` — the reader reads a class as these items, or fails with this fault.
-/

namespace FileDepot.Regex

/-- A member of a class as it is written, and the character that it stands for. -/
structure Spelled where
  written : List Char
  char : Char
  deriving DecidableEq

namespace Spelled

/-- The member is written plainly, or with a backslash in front of a character that may have one. -/
def Fits (a : Spelled) : Prop :=
  (a.written = [a.char] ∧ a.char ≠ '\\' ∧ a.char ≠ ']') ∨
    (a.written = ['\\', a.char] ∧ a.char ∈ specials)

/-- The member is a plain dash, which stands for a range between two other members. -/
def isDash (a : Spelled) : Bool :=
  a.written == ['-']

/-- The member at an offset of an expression. -/
def atomAt (a : Spelled) (position : Nat) : ClassAtom :=
  ⟨a.written, position, .char a.char, some a.char⟩

theorem Fits.ne_nil {a : Spelled} (ha : a.Fits) : a.written ≠ [] := by
  rcases ha with ⟨h, -⟩ | ⟨h, -⟩ <;> simp [h]

/-- Only a plain dash starts with one. -/
theorem Fits.isDash_iff {a : Spelled} (ha : a.Fits) :
    a.isDash = true ↔ a.written.head? = some '-' := by
  rcases ha with ⟨h, -⟩ | ⟨h, -⟩ <;> simp [isDash, h]

end Spelled

/-- A text of members. -/
def writtenMembers (members : List Spelled) : List Char :=
  members.flatMap Spelled.written

/-- The items that members from an offset on spell, or the first range that runs downwards. -/
def readMembers : Nat → List Spelled → Except Error (List ClassItem)
  | position, low :: dash :: high :: rest =>
    if dash.isDash then
      if low.char.toNat ≤ high.char.toNat then
        (readMembers (position + low.written.length + 1 + high.written.length) rest).map
          (.range low.char high.char :: ·)
      else .error ⟨.badRange (String.ofList low.written) (String.ofList high.written), position⟩
    else
      (readMembers (position + low.written.length) (dash :: high :: rest)).map (.char low.char :: ·)
  | position, a :: rest => (readMembers (position + a.written.length) rest).map (.char a.char :: ·)
  | _, [] => .ok []

/-! ## Single members -/

theorem escaped?_special (start : Nat) : ∀ c ∈ specials,
    ClassAtom.escaped? c start = some ⟨['\\', c], start, .char c, some c⟩ := by
  have hall : specials.all (fun c =>
      decide (escapedKind c = none ∧ c ≠ 'b' ∧ escapedChar c = some c)) = true := by
    decide +kernel
  intro c hc
  obtain ⟨hkind, hb, hchar⟩ := of_decide_eq_true (List.all_eq_true.mp hall c hc)
  simp [ClassAtom.escaped?, hkind, hb, hchar]

/-- In front of a member the reader takes it and waits for a dash. -/
theorem run_member {s : Reader} {cls : OpenClass} (hs : s.construct = .member cls) {a : Spelled}
    (ha : a.Fits) :
    s.run a.written = .ok { s with
      construct := .behindMember cls (a.atomAt s.position)
      position := s.position + a.written.length } := by
  rcases ha with ⟨h, hslash, hclose⟩ | ⟨h, hspecial⟩
  · simp [h, Reader.run, Reader.step, Reader.advanceConstruct, hs, Reader.member, hclose, hslash,
      Spelled.atomAt, ClassAtom.plain]
  · simp [h, Reader.run, Reader.step, Reader.advanceConstruct, hs, Reader.member,
      escaped?_special s.position a.char hspecial, Spelled.atomAt]

/-- Readers that take the first character of a text in the same way read the whole of it in the same way. -/
theorem Reader.run_eq_of_step {s s' : Reader} {cs : List Char} (hne : cs ≠ [])
    (h : ∀ c, cs.head? = some c → s.step c = s'.step c) : s.run cs = s'.run cs := by
  cases cs with
  | nil => exact absurd rfl hne
  | cons c cs => rw [Reader.run, Reader.run, h c rfl]

/-- Behind a member any text that starts with no dash is read as in front of the next member. -/
theorem run_behindMember {s : Reader} {cls : OpenClass} {low : ClassAtom}
    (hs : s.construct = .behindMember cls low) {cs : List Char} (hne : cs ≠ [])
    (hdash : cs.head? ≠ some '-') :
    s.run cs = { s with construct := .member (cls.add low.item) : Reader }.run cs := by
  refine Reader.run_eq_of_step hne fun c hc => ?_
  have hne : c ≠ '-' := fun h => hdash (h ▸ hc)
  simp only [Reader.step, Reader.advanceConstruct, hs, if_neg hne, Reader.member]
  split
  · rfl
  · split <;> rfl

/-- A range is read as soon as both its ends are. -/
theorem Reader.finishRange_eq (s : Reader) (cls : OpenClass) (low high : ClassAtom) :
    s.finishRange cls low high =
      (low.rangeTo high).map fun item => { s with construct := .member (cls.add item) } := by
  rw [Reader.finishRange]
  cases low.rangeTo high <;> rfl

/-- Behind a member and a dash the next member ends the range. -/
theorem run_range {s : Reader} {cls : OpenClass} {low : ClassAtom} (hs : s.construct = .range cls low)
    {a : Spelled} (ha : a.Fits) :
    s.run a.written = (low.rangeTo (a.atomAt s.position)).map fun item => { s with
      construct := .member (cls.add item)
      position := s.position + a.written.length } := by
  rcases ha with ⟨h, hslash, hclose⟩ | ⟨h, hspecial⟩
  · have hatom : ClassAtom.plain a.char s.position = a.atomAt s.position := by
      simp [ClassAtom.plain, Spelled.atomAt, h]
    simp only [h, Reader.run, Reader.step, Reader.advanceConstruct, hs, hclose, hslash, if_false,
      List.length_singleton, hatom, Reader.finishRange_eq]
    cases low.rangeTo (a.atomAt s.position) <;> rfl
  · have hatom : (⟨['\\', a.char], s.position, .char a.char, some a.char⟩ : ClassAtom) =
        a.atomAt s.position := by
      simp [Spelled.atomAt, h]
    simp only [h, Reader.run, Reader.step, Reader.advanceConstruct, hs, if_true, Nat.add_sub_cancel,
      escaped?_special s.position a.char hspecial, List.length_cons, List.length_nil,
      show ('\\' : Char) ≠ ']' by decide, if_false, hatom, Reader.finishRange_eq]
    cases low.rangeTo (a.atomAt s.position) <;> rfl

/-! ## Lists of members -/

/-- The reader behind a class, with the class as one more item. -/
def Reader.withClass (s : Reader) (cls : OpenClass) (n : Nat) (items : List ClassItem) : Reader :=
  { s.push (.one (.member ⟨cls.negated, cls.items.reverse ++ items⟩)) with position := s.position + n }

theorem Reader.withClass_later (s : Reader) (cls : OpenClass) (item : ClassItem) (k : Construct)
    (m n : Nat) (items : List ClassItem) :
    ({ s with construct := k, position := s.position + m } : Reader).withClass (cls.add item) n items =
      s.withClass cls (m + n) (item :: items) := by
  simp [Reader.withClass, OpenClass.add, Reader.push, Reader.pushAs, Nat.add_assoc]

/-- A closing bracket ends a class that has an item. -/
theorem run_classEnd {s : Reader} {cls : OpenClass} (hs : s.construct = .member cls)
    (hitems : cls.items ≠ []) : s.run [']'] = .ok (s.withClass cls 1 []) := by
  simp [Reader.run, Reader.step, Reader.advanceConstruct, hs, Reader.member, hitems, Reader.withClass,
    OpenClass.close, Reader.push, Reader.pushAs]

/-- A dash in last place is a member. -/
theorem run_lastDash {s : Reader} {cls : OpenClass} (hs : s.construct = .member cls) {a : Spelled}
    (ha : a.Fits) :
    s.run (a.written ++ ['-', ']']) =
      .ok (s.withClass cls (a.written.length + 2) [.char a.char, .char '-']) := by
  rw [Reader.run_append_of_ok (run_member hs ha)]
  simp [Reader.run, Reader.step, Reader.advanceConstruct, Reader.withClass, Spelled.atomAt,
    OpenClass.close, Reader.push, Reader.pushAs, OpenClass.add, Nat.add_assoc]

/-- A member in front of a text that starts with no dash is an item of its own. -/
theorem run_member_append {s : Reader} {cls : OpenClass} (hs : s.construct = .member cls) {a : Spelled}
    (ha : a.Fits) {cs : List Char} (hne : cs ≠ []) (hdash : cs.head? ≠ some '-') :
    s.run (a.written ++ cs) =
      { s with construct := .member (cls.add (.char a.char)),
               position := s.position + a.written.length : Reader }.run cs := by
  rw [Reader.run_append_of_ok (run_member hs ha), run_behindMember rfl hne hdash]
  rfl

/-- Two members with a dash between them are a range, unless it runs downwards. -/
theorem run_range_append {s : Reader} {cls : OpenClass} (hs : s.construct = .member cls)
    {low high : Spelled} (hlow : low.Fits) (hhigh : high.Fits) (cs : List Char) :
    s.run (low.written ++ '-' :: (high.written ++ cs)) =
      if low.char.toNat ≤ high.char.toNat then
        { s with construct := .member (cls.add (.range low.char high.char)),
                 position := s.position + (low.written.length + 1 + high.written.length) : Reader }.run cs
      else .error
        ⟨.badRange (String.ofList low.written) (String.ofList high.written), s.position⟩ := by
  rw [Reader.run_append_of_ok (run_member hs hlow), Reader.run_cons]
  simp only [Reader.step, Reader.advanceConstruct, if_true, Except.bind]
  rw [Reader.run_append, run_range rfl hhigh]
  simp only [ClassAtom.rangeTo, Spelled.atomAt]
  split
  · simp [Except.map, Except.bind, Nat.add_assoc]
  · rfl

/-- A text of members starts with a dash if its first member is one. -/
theorem head?_writtenMembers {a : Spelled} (ha : a.Fits) (rest : List Spelled) (cs : List Char) :
    (writtenMembers (a :: rest) ++ cs).head? = a.written.head? := by
  rw [writtenMembers, List.flatMap_cons, List.append_assoc, List.head?_append]
  cases h : a.written with
  | nil => exact absurd h ha.ne_nil
  | cons c cs => rfl

theorem map_map_withClass {s : Reader} {cls : OpenClass} {m n : Nat} {item : ClassItem} {k : Construct}
    (answer : Except Error (List ClassItem)) :
    answer.map (({ s with construct := k, position := s.position + m } : Reader).withClass
        (cls.add item) n) =
      (answer.map (item :: ·)).map (s.withClass cls (m + n)) := by
  cases answer with
  | error e => rfl
  | ok items => exact congrArg Except.ok (s.withClass_later cls item k m n items)

theorem writtenMembers_cons (a : Spelled) (rest : List Spelled) (cs : List Char) :
    writtenMembers (a :: rest) ++ cs = a.written ++ (writtenMembers rest ++ cs) := by
  simp [writtenMembers]

/-- A member behind which no range starts is an item in front of those of the members behind it. -/
theorem run_member_cons {s : Reader} {cls : OpenClass} (hs : s.construct = .member cls) {a : Spelled}
    {rest : List Spelled} (hfit : ∀ b ∈ a :: rest, b.Fits)
    (hdash : ∀ b ∈ rest.head?, b.isDash = false)
    {answer : Except Error (List ClassItem)}
    (hrest : ({ s with construct := .member (cls.add (.char a.char)),
                       position := s.position + a.written.length } : Reader).run
        (writtenMembers rest ++ [']']) =
      answer.map (({ s with construct := .member (cls.add (.char a.char)),
                            position := s.position + a.written.length } : Reader).withClass
        (cls.add (.char a.char)) ((writtenMembers rest).length + 1))) :
    s.run (writtenMembers (a :: rest) ++ [']']) =
      (answer.map (.char a.char :: ·)).map
        (s.withClass cls ((writtenMembers (a :: rest)).length + 1)) := by
  have hhead : (writtenMembers rest ++ [']']).head? ≠ some '-' := by
    cases rest with
    | nil => simp [writtenMembers]
    | cons b rest =>
      have hb := hfit b (by simp)
      rw [head?_writtenMembers hb]
      intro h
      exact absurd (hb.isDash_iff.mpr h) (by simp [hdash b (by simp)])
  rw [writtenMembers_cons, run_member_append hs (hfit a (by simp)) (by simp) hhead, hrest,
    map_map_withClass]
  congr 2
  simp [writtenMembers]
  omega

/-- **Members read as their items.** In front of members the reader reads them up to the closing bracket, or
    fails with the first range that runs downwards. -/
theorem run_members (position : Nat) (members : List Spelled) :
    ∀ (s : Reader) (cls : OpenClass), s.position = position → s.construct = .member cls →
      (∀ a ∈ members, a.Fits) → (cls.items ≠ [] ∨ members ≠ []) →
      s.run (writtenMembers members ++ [']']) =
        (readMembers position members).map
          (s.withClass cls ((writtenMembers members).length + 1)) := by
  have added : ∀ (cls : OpenClass) (item : ClassItem), (cls.add item).items ≠ [] := by
    simp [OpenClass.add]
  -- the induction follows `readMembers`, which takes a member, a dash and a member as a range at once
  induction position, members using readMembers.induct with
  | case1 position low dash high rest hdash hle ih =>
    intro s cls hpos hs hfit _
    subst hpos
    have hd : dash.written = ['-'] := by simpa [Spelled.isDash] using hdash
    simp only [writtenMembers_cons, hd, List.singleton_append]
    rw [run_range_append hs (hfit low (by simp)) (hfit high (by simp)), if_pos hle,
      ih _ (cls.add (.range low.char high.char)) (by simp [Nat.add_assoc]) rfl
        (fun a ha => hfit a (by simp [ha])) (Or.inl (added _ _)),
      map_map_withClass, readMembers, if_pos hdash, if_pos hle]
    congr 2
    simp [writtenMembers, hd]
    omega
  | case2 position low dash high rest hdash hle =>
    intro s cls hpos hs hfit _
    subst hpos
    have hd : dash.written = ['-'] := by simpa [Spelled.isDash] using hdash
    simp only [writtenMembers_cons, hd, List.singleton_append]
    rw [run_range_append hs (hfit low (by simp)) (hfit high (by simp)), if_neg hle, readMembers,
      if_pos hdash, if_neg hle]
    rfl
  | case3 position low dash high rest hdash ih =>
    intro s cls hpos hs hfit _
    subst hpos
    rw [readMembers, if_neg hdash]
    refine run_member_cons hs hfit (by simpa using hdash) (ih _ _ rfl rfl ?_ (Or.inl (added _ _)))
    exact fun a ha => hfit a (List.mem_cons_of_mem _ ha)
  | case4 position a rest hshort ih =>
    intro s cls hpos hs hfit _
    subst hpos
    have hread : readMembers s.position (a :: rest) =
        (readMembers (s.position + a.written.length) rest).map (.char a.char :: ·) := by
      match rest, hshort with
      | [], _ => rfl
      | [b], _ => rfl
      | b :: c :: ds, hshort => exact absurd rfl (hshort b c ds)
    by_cases hlast : ∃ b, rest = [b] ∧ b.isDash = true
    · -- a dash in last place is a member, which the reader finds out at the closing bracket only
      obtain ⟨b, rfl, hb⟩ := hlast
      have hd : b.written = ['-'] := by simpa [Spelled.isDash] using hb
      have hchar : b.char = '-' := by
        rcases hfit b (by simp) with ⟨h, -⟩ | ⟨h, -⟩ <;> simp_all
      have htext : writtenMembers [a, b] ++ [']'] = a.written ++ ['-', ']'] := by
        simp [writtenMembers, hd]
      have hlen : (writtenMembers [a, b]).length + 1 = a.written.length + 2 := by
        simp [writtenMembers, hd]
      rw [htext, hlen, run_lastDash hs (hfit a (by simp)), hread]
      simp [readMembers, Except.map, hchar]
    · rw [hread]
      refine run_member_cons hs hfit ?_ (ih _ _ rfl rfl ?_ (Or.inl (added _ _)))
      · match rest, hshort, hlast with
        | [], _, _ => simp
        | [b], _, hlast => simpa using fun hb => hlast ⟨b, rfl, hb⟩
        | b :: c :: ds, hshort, _ => exact absurd rfl (hshort b c ds)
      · exact fun a ha => hfit a (List.mem_cons_of_mem _ ha)
  | case5 position =>
    intro s cls hpos hs _ hne
    exact run_classEnd hs (hne.resolve_right fun h => h rfl)

/-! ## Classes -/

/-- The caret of a negated class. -/
def negation (negated : Bool) : List Char :=
  if negated then ['^'] else []

/-- The start of a class that is not negated is read as the place in front of its first member. -/
theorem run_classStart {s : Reader} {start : Nat} (hs : s.construct = .classStart start)
    {cs : List Char} (hne : cs ≠ []) (hcaret : cs.head? ≠ some '^') :
    s.run cs = { s with construct := .member { start := start } : Reader }.run cs := by
  refine Reader.run_eq_of_step hne fun c hc => ?_
  have hne : c ≠ '^' := fun h => hcaret (h ▸ hc)
  simp only [Reader.step, Reader.advanceConstruct, hs, if_neg hne, Reader.member]
  split
  · rfl
  · split <;> rfl

/-- The opening bracket of a class and its caret are read up to the place in front of the first member. -/
theorem run_classOpen {s : Reader} (hs : s.Between) (ho : s.options = {}) (negated : Bool)
    {cs : List Char} (hne : cs ≠ []) (hcaret : negated = false → cs.head? ≠ some '^') :
    s.run ('[' :: negation negated ++ cs) =
      { s with construct := .member { negated := negated, start := s.position },
               position := s.position + 1 + (negation negated).length : Reader }.run cs := by
  have hopen : s.step '[' =
      .ok { s with construct := .classStart s.position, position := s.position + 1 } := by
    rw [Reader.step_of_between hs (by decide)]
    simp [Reader.plainStep, ho, Except.map, Reader.next]
  rw [List.cons_append, Reader.run_cons, hopen]
  cases negated with
  | false => exact run_classStart rfl hne (hcaret rfl)
  | true => rfl

/-- **A class reads as its members.** Between two constructs the reader reads a class as the items of its
    members, or fails with the first range that runs downwards. A class that is not negated starts with no
    plain caret. -/
theorem run_class {s : Reader} (hs : s.Between) (ho : s.options = {}) (negated : Bool)
    {members : List Spelled} (hfit : ∀ a ∈ members, a.Fits) (hne : members ≠ [])
    (hcaret : negated = false → (writtenMembers members ++ [']']).head? ≠ some '^') :
    s.run ('[' :: negation negated ++ (writtenMembers members ++ [']'])) =
      (readMembers (s.position + 1 + (negation negated).length) members).map fun items =>
        { s.push (.one (.member ⟨negated, items⟩)) with
          position := s.position +
            ('[' :: negation negated ++ (writtenMembers members ++ [']'])).length } := by
  rw [run_classOpen hs ho negated (by simp) hcaret,
    run_members _ members _ { negated := negated, start := s.position } rfl rfl hfit (Or.inr hne)]
  congr 1
  funext items
  simp [Reader.withClass, Reader.push, Reader.pushAs, Nat.add_assoc, Nat.add_comm 1]

/-- A class reads as one test if its members have items at every offset. -/
theorem readsItem_class {negated : Bool} {members : List Spelled} {items : List ClassItem}
    (hfit : ∀ a ∈ members, a.Fits) (hne : members ≠ [])
    (hcaret : negated = false → (writtenMembers members ++ [']']).head? ≠ some '^')
    (hread : ∀ position, readMembers position members = .ok items) :
    ReadsItem ('[' :: negation negated ++ (writtenMembers members ++ [']']))
      (.one (.member ⟨negated, items⟩)) where
  head := by simp
  nonempty := by simp
  run s hs ho := by
    have hrun := run_class hs ho negated hfit hne hcaret
    rw [hread, Except.map] at hrun
    exact ⟨_, hrun, ⟨Or.inl rfl, rfl, rfl, rfl, rfl, rfl⟩, rfl, rfl⟩

end FileDepot.Regex
