import FileDepot.Regex.Escape
import FileDepot.Regex.Reader

/-!
# Texts that read as expressions

The reader is a fold over characters, so a text may be read part by part. `Reads` says which items a part adds
between two constructs; the parts of a written expression are put together by `Reads.append`.

Contents:

* `Reader.After`, `Reads`, `ReadsItem` — what a part of a text adds, several items or one that can be repeated;
* `Reads.append`, `ReadsItem.star`, `ReadsItem.group`, … — parts put together;
* `reads_escape` — an escaped text reads as its characters;
* `Reader.After.readWith_eq` — a whole text.
-/

namespace FileDepot.Regex

/-- The reader stands between two constructs. -/
def Reader.Between (s : Reader) : Prop :=
  s.construct = .plain ∨ s.construct = .repeated

/-- The reader `n` characters later, with more items in the innermost group, between two constructs. -/
structure Reader.After (s : Reader) (n : Nat) (rs : List Regex) (s' : Reader) : Prop where
  between : s'.Between
  outer : s'.outer = s.outer
  options : s'.options = s.options
  position : s'.position = s.position + n
  alternatives : s'.inner.alternatives = s.inner.alternatives
  items : s'.inner.items = rs.reverse ++ s.inner.items

/-- Between two constructs the text reads as items. It does not start with a sign that would continue a
    repetition in front of it. -/
structure Reads (cs : List Char) (rs : List Regex) : Prop where
  head : ∀ c ∈ cs.head?, c ≠ '?' ∧ c ≠ '+'
  run : ∀ s : Reader, s.Between → s.options = {} → ∃ s', s.run cs = .ok s' ∧ s.After cs.length rs s'

/-- Between two constructs the text reads as one item, which a sign behind it may repeat. -/
structure ReadsItem (cs : List Char) (r : Regex) : Prop where
  head : ∀ c ∈ cs.head?, c ≠ '?' ∧ c ≠ '+'
  nonempty : cs ≠ []
  run : ∀ s : Reader, s.Between → s.options = {} →
    ∃ s', s.run cs = .ok s' ∧ s.After cs.length [r] s' ∧ s'.construct = .plain ∧ s'.inner.last = .item

/-! ## One character -/

/-- The reader one character later. -/
def Reader.next (s : Reader) : Reader :=
  { s with position := s.position + 1 }

theorem Reader.step_eq (s : Reader) (c : Char) :
    s.step c = (s.advanceConstruct c).map Reader.next := by
  rw [Reader.step]
  cases s.advanceConstruct c <;> rfl

/-- Between two constructs a character is read plainly, unless it continues a repetition. -/
theorem Reader.step_of_between {s : Reader} (hs : s.Between) {c : Char} (hc : c ≠ '?' ∧ c ≠ '+') :
    s.step c = (s.plainStep c).map Reader.next := by
  rw [Reader.step_eq]
  rcases hs with h | h <;> simp [Reader.advanceConstruct, h, hc.1, hc.2]

theorem Reader.run_cons (s : Reader) (c : Char) (cs : List Char) :
    s.run (c :: cs) = (s.step c).bind fun s => s.run cs := by
  rw [Reader.run]
  cases s.step c <;> rfl

theorem Reader.run_append_of_ok {s s' : Reader} {cs : List Char} (h : s.run cs = .ok s')
    (ds : List Char) : s.run (cs ++ ds) = s'.run ds := by
  rw [Reader.run_append, h]
  rfl

theorem Reader.run_append_of_error {s : Reader} {cs : List Char} {e : Error} (h : s.run cs = .error e)
    (ds : List Char) : s.run (cs ++ ds) = .error e := by
  rw [Reader.run_append, h]
  rfl

/-! ## Parts one after another -/

theorem Reader.After.trans {s s' s'' : Reader} {n m : Nat} {rs ss : List Regex}
    (h : s.After n rs s') (h' : s'.After m ss s'') : s.After (n + m) (rs ++ ss) s'' where
  between := h'.between
  outer := h'.outer.trans h.outer
  options := h'.options.trans h.options
  position := by rw [h'.position, h.position, Nat.add_assoc]
  alternatives := h'.alternatives.trans h.alternatives
  items := by rw [h'.items, h.items, List.reverse_append, List.append_assoc]

theorem reads_nil : Reads [] [] where
  head := by simp
  run s hs _ := ⟨s, rfl, hs, rfl, rfl, rfl, rfl, rfl⟩

theorem Reads.append {cs ds : List Char} {rs ss : List Regex} (h : Reads cs rs) (h' : Reads ds ss) :
    Reads (cs ++ ds) (rs ++ ss) where
  head := by
    cases cs with
    | nil => exact h'.head
    | cons c cs => exact h.head
  run s hs ho := by
    obtain ⟨s', hrun, hafter⟩ := h.run s hs ho
    obtain ⟨s'', hrun', hafter'⟩ := h'.run s' hafter.between (hafter.options.trans ho)
    refine ⟨s'', ?_, ?_⟩
    · rw [Reader.run_append_of_ok hrun, hrun']
    · rw [List.length_append]
      exact hafter.trans hafter'

theorem ReadsItem.reads {cs : List Char} {r : Regex} (h : ReadsItem cs r) : Reads cs [r] where
  head := h.head
  run s hs ho := by
    obtain ⟨s', hrun, hafter, -⟩ := h.run s hs ho
    exact ⟨s', hrun, hafter⟩

/-- Texts that read as items each read as these items in turn. -/
theorem reads_flatMap {α : Type} {f : α → List Char} {g : α → Regex} {xs : List α}
    (h : ∀ x ∈ xs, Reads (f x) [g x]) : Reads (xs.flatMap f) (xs.map g) := by
  induction xs with
  | nil => exact reads_nil
  | cons x xs ih =>
    exact (h x (by simp)).append (ih fun y hy => h y (by simp [hy]))

/-! ## Single characters -/

/-- A part of one character that adds an item. -/
theorem readsItem_char {c : Char} {r : Regex} (hc : c ≠ '?' ∧ c ≠ '+')
    (h : ∀ s : Reader, s.options = {} → s.plainStep c = .ok (s.push r)) : ReadsItem [c] r where
  head := by simpa using hc
  nonempty := by simp
  run s hs ho := by
    refine ⟨(s.push r).next, ?_, ⟨Or.inl rfl, rfl, rfl, rfl, rfl, rfl⟩, rfl, rfl⟩
    rw [Reader.run_cons, Reader.step_of_between hs hc, h s ho]
    rfl

/-- A part of one character that adds a condition on the place. -/
theorem reads_condition {c : Char} {a : Anchor} (hc : c ≠ '?' ∧ c ≠ '+')
    (h : ∀ s : Reader, s.options = {} → s.plainStep c = .ok (s.pushAs .condition (.anchor a))) :
    Reads [c] [.anchor a] where
  head := by simpa using hc
  run s hs ho := by
    refine ⟨(s.pushAs .condition (.anchor a)).next, ?_, Or.inl rfl, rfl, rfl, rfl, rfl, rfl⟩
    rw [Reader.run_cons, Reader.step_of_between hs hc, h s ho]
    rfl

theorem readsItem_dot : ReadsItem ['.'] (.one .any) :=
  readsItem_char (by decide) fun s ho => by cases s; cases ho; rfl

theorem reads_caret : Reads ['^'] [.anchor .lineStart] :=
  reads_condition (by decide) fun s ho => by cases s; cases ho; rfl

theorem reads_dollar : Reads ['$'] [.anchor .lineStop] :=
  reads_condition (by decide) fun s ho => by cases s; cases ho; rfl

/-- A character that needs a backslash stands for itself behind one. -/
theorem escapeMeaning_special : ∀ c ∈ specials, escapeMeaning c = some (.one (.literal c), .item) := by
  have hall : specials.all (fun c => decide (escapeMeaning c = some (.one (.literal c), .item))) = true := by
    decide +kernel
  simpa only [List.all_eq_true, decide_eq_true_eq] using hall

/-- **An escaped character reads as itself.** -/
theorem readsItem_escapeChar (c : Char) : ReadsItem (escapeChar c) (.one (.literal c)) := by
  by_cases hspecial : isSpecial c = true
  · have hmean := escapeMeaning_special c (List.contains_iff_mem.mp hspecial)
    rw [escapeChar, if_pos hspecial]
    refine ⟨by simp, by simp, fun s hs ho => ?_⟩
    refine ⟨((s.push (.one (.literal c))).next).next, ?_,
      ⟨Or.inl rfl, rfl, rfl, rfl, rfl, rfl⟩, rfl, rfl⟩
    rw [Reader.run_cons, Reader.step_of_between hs (by decide)]
    simp [Reader.plainStep, ho, Except.map, Except.bind, Reader.run, Reader.step,
      Reader.advanceConstruct, Reader.next, hmean, Reader.push, Reader.pushAs]
  · rw [escapeChar, if_neg hspecial]
    have hne : ∀ d ∈ specials, c ≠ d := by
      rintro d hd rfl
      exact hspecial (List.contains_iff_mem.mpr hd)
    refine readsItem_char ⟨hne _ (by decide), hne _ (by decide)⟩ fun s ho => ?_
    -- every other case of the reader is one of the special characters
    simp only [Reader.plainStep, ho, Bool.false_and, Bool.false_eq_true, if_false]
    split <;> first | rfl | exact absurd rfl (hne _ (by decide))

/-- **An escaped text reads as its characters.** -/
theorem reads_escape (cs : List Char) : Reads (escape cs) (cs.map char) :=
  reads_flatMap fun c _ => (readsItem_escapeChar c).reads

/-! ## Repetitions and groups -/

/-- A repetition sign takes the last item. -/
theorem Reader.repeatLast_of_item {s : Reader} {r : Regex} {items : List Regex}
    (hlast : s.inner.last = .item) (hitems : s.inner.items = r :: items) (start : Nat)
    (f : Regex → Regex) :
    s.repeatLast start f = .ok { s with
      inner := { s.inner with items := f r :: items, last := .repetition }
      construct := .repeated } := by
  rw [Reader.repeatLast, hlast, hitems]

/-- A part with a sign behind it that repeats its item. -/
theorem ReadsItem.repeated {cs : List Char} {r : Regex} (h : ReadsItem cs r) {sign : Char}
    {f : Regex → Regex}
    (hsign : ∀ s : Reader, s.options = {} → s.plainStep sign = s.repeatLast s.position f) :
    Reads (cs ++ [sign]) [f r] where
  head := by
    cases cs with
    | nil => exact absurd rfl h.nonempty
    | cons c cs => exact h.head
  run s hs ho := by
    obtain ⟨s', hrun, hafter, hplain, hlast⟩ := h.run s hs ho
    have hstep : s'.step sign = (s'.repeatLast s'.position f).map Reader.next := by
      rw [Reader.step_eq, Reader.advanceConstruct, hplain, ← hsign s' (hafter.options.trans ho)]
    rw [Reader.repeatLast_of_item hlast hafter.items] at hstep
    refine ⟨_, by rw [Reader.run_append_of_ok hrun, Reader.run_cons, hstep]; rfl, ?_⟩
    exact ⟨Or.inr rfl, hafter.outer, hafter.options,
      by simp [Reader.next, hafter.position, Nat.add_assoc], hafter.alternatives, by simp [Reader.next]⟩

theorem ReadsItem.star {cs : List Char} {r : Regex} (h : ReadsItem cs r) :
    Reads (cs ++ ['*']) [.star r] :=
  h.repeated fun s ho => by cases s; cases ho; rfl

theorem ReadsItem.plus {cs : List Char} {r : Regex} (h : ReadsItem cs r) :
    Reads (cs ++ ['+']) [Regex.plus r] :=
  h.repeated fun s ho => by cases s; cases ho; rfl

theorem ReadsItem.optional {cs : List Char} {r : Regex} (h : ReadsItem cs r) :
    Reads (cs ++ ['?']) [Regex.optional r] :=
  h.repeated fun s ho => by cases s; cases ho; rfl

/-- **A group reads as the sequence of its items.** -/
theorem Reads.group {cs : List Char} {rs : List Regex} (h : Reads cs rs) :
    ReadsItem (['(', '?', ':'] ++ cs ++ [')']) (sequence rs) where
  head := by simp
  nonempty := by simp
  run s hs ho := by
    -- inside the parentheses a new innermost group is open, and the one around it waits
    let opened : Reader :=
      { s with outer := s.inner :: s.outer, inner := { openedAt := s.position + 2 },
               construct := .plain, position := s.position + 3 }
    have hopen : s.run ['(', '?', ':'] = .ok opened := by
      rw [Reader.run_cons, Reader.step_of_between hs (by decide)]
      simp [Reader.plainStep, ho, Except.map, Except.bind, Reader.run, Reader.step,
        Reader.advanceConstruct, Reader.next, Reader.openGroup, opened]
    obtain ⟨s', hrun, hafter⟩ := h.run opened (Or.inl rfl) ho
    have hclose : s'.inner.close = sequence rs := by
      simp [Frame.close, hafter.alternatives, hafter.items, opened]
    let closed : Reader :=
      { s' with outer := s.outer, inner := s.inner.push (sequence rs) .item,
                construct := .plain, position := s'.position + 1 }
    have hstep : s'.step ')' = .ok closed := by
      rw [Reader.step_of_between hafter.between (by decide)]
      simp [Reader.plainStep, hafter.options, ho, opened, Reader.closeGroup, hafter.outer, hclose,
        Except.map, Reader.next, closed]
    have hwhole : s.run (['(', '?', ':'] ++ cs ++ [')']) = .ok closed := by
      rw [List.append_assoc, Reader.run_append_of_ok hopen, Reader.run_append_of_ok hrun,
        Reader.run_cons, hstep]
      rfl
    refine ⟨closed, hwhole, ⟨Or.inl rfl, rfl, hafter.options, ?_, rfl, rfl⟩, rfl, rfl⟩
    simp [hafter.position, opened, closed]
    omega

/-! ## Whole texts -/

/-- **A text that has been read to its end is the expression of the items in it.** -/
theorem Reader.After.readWith_eq {cs : List Char} {rs : List Regex} {s' : Reader}
    (h : ({} : Reader).After cs.length rs s') (hrun : ({} : Reader).run cs = .ok s') :
    readWith {} cs = .ok (sequence rs, {}) := by
  have hclose : s'.inner.close = sequence rs := by
    simp [Frame.close, h.alternatives, h.items]
  have houter : s'.outer.isEmpty = true := by simp [h.outer]
  rw [readWith, hrun]
  rcases h.between with hplain | hplain <;>
    simp [Reader.finish, hplain, houter, hclose, h.options]

end FileDepot.Regex
