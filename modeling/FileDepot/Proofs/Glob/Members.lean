import FileDepot.Proofs.Glob.SegmentWords

/-!
# Bracket classes mean their members

A bracket of a segment that is closed holds a list of members, and the expression that is written for it
reads as one class that accepts what the list says.

Contents:

* `bodySingles`, `HasMember` — the members of a list that are in no range, and what is a member or in a range;
* `lists_iff`, `hasMember_of_ne_dash` — that is what a body lists, and every character of it but a dash
  between two others is a member;
* `readsItem_members`, `matchesStart_class` — the expression of a class reads as one item, which takes one
  character;
* `Closes.text` — the text of a segment around a class;
* `class_means_members` — all of it, for any bracket of a segment that is closed.
-/

namespace FileDepot.Glob

open Regex

/-! ## Members and ranges -/

/-- The members, read from the left, that are no part of a range. -/
def bodySingles : List Char → List Char
  | _ :: '-' :: _ :: rest => bodySingles rest
  | x :: rest => x :: bodySingles rest
  | [] => []

/-- The character is a member of the list or lies in one of its ranges. -/
def HasMember (body : List Char) (c : Char) : Prop :=
  c ∈ bodySingles body ∨ ∃ range ∈ bodyRanges body, range.1.toNat ≤ c.toNat ∧ c.toNat ≤ range.2.toNat

theorem bodySingles_cons {x : Char} {rest : List Char} (h : ∀ high rest', rest ≠ '-' :: high :: rest') :
    bodySingles (x :: rest) = x :: bodySingles rest := by
  rw [bodySingles]
  exact h

theorem hasMember_range {low high : Char} {rest : List Char} {c : Char} :
    HasMember (low :: '-' :: high :: rest) c ↔
      (low.toNat ≤ c.toNat ∧ c.toNat ≤ high.toNat) ∨ HasMember rest c := by
  simp only [HasMember, bodySingles, bodyRanges, List.exists_mem_cons_iff]
  exact or_left_comm

theorem hasMember_cons {x : Char} {rest : List Char} (h : ∀ high rest', rest ≠ '-' :: high :: rest')
    {c : Char} : HasMember (x :: rest) c ↔ c = x ∨ HasMember rest c := by
  rw [HasMember, bodySingles_cons h, bodyRanges_cons h, List.mem_cons, or_assoc]
  rfl

/-- **A body lists its members and what lies in its ranges.** -/
theorem lists_iff (body : List Char) (c : Char) : lists c body = true ↔ HasMember body c := by
  induction body using bodyRanges.induct with
  | case1 low high rest ih => simp [lists, hasMember_range, ih]
  | case2 x rest hx ih =>
    rw [hasMember_cons hx, ← ih, lists, Bool.or_eq_true, beq_iff_eq, eq_comm]
    exact hx
  | case3 => simp [lists, HasMember, bodySingles, bodyRanges]

theorem upright_range {low high : Char} {rest : List Char} :
    hasReversed (low :: '-' :: high :: rest) = false ↔ low.toNat ≤ high.toNat ∧ hasReversed rest = false := by
  simp [hasReversed]

section

variable {body : List Char} (hup : hasReversed body = false) {c : Char}

include hup

/-- What stands first is a member, or the lower end of a range. -/
theorem hasMember_first (hc : body.head? = some c) : HasMember body c := by
  induction body using bodyRanges.induct with
  | case1 low high rest =>
    obtain rfl : low = c := Option.some.inj hc
    exact hasMember_range.mpr (.inl ⟨Nat.le_refl _, (upright_range.mp hup).1⟩)
  | case2 x rest hx =>
    obtain rfl : x = c := Option.some.inj hc
    exact (hasMember_cons hx).mpr (.inl rfl)
  | case3 => cases hc

/-- What stands last is a member, or the upper end of a range. -/
theorem hasMember_last (hc : body.getLast? = some c) : HasMember body c := by
  induction body using bodyRanges.induct with
  | case1 low high rest ih =>
    obtain ⟨hle, hup⟩ := upright_range.mp hup
    rw [hasMember_range]
    cases rest with
    | nil =>
      obtain rfl : high = c := by simpa using hc
      exact .inl ⟨hle, Nat.le_refl _⟩
    | cons y rest => exact .inr (ih hup (by simpa using hc))
  | case2 x rest hx ih =>
    rw [hasReversed_cons hx] at hup
    rw [hasMember_cons hx]
    cases rest with
    | nil => exact .inl (by simpa using hc.symm)
    | cons y rest => exact .inr (ih hup (by simpa using hc))
  | case3 => cases hc

/-- **Every other character is a member wherever it stands**, whatever it means elsewhere: only a dash
between two members makes a range. -/
theorem hasMember_of_ne_dash (hc : c ∈ body) (hdash : c ≠ '-') : HasMember body c := by
  induction body using bodyRanges.induct with
  | case1 low high rest ih =>
    obtain ⟨hle, hup⟩ := upright_range.mp hup
    rw [hasMember_range]
    simp only [List.mem_cons, hdash, false_or] at hc
    rcases hc with rfl | rfl | hc
    · exact .inl ⟨Nat.le_refl _, hle⟩
    · exact .inl ⟨hle, Nat.le_refl _⟩
    · exact .inr (ih hup hc)
  | case2 x rest hx ih =>
    rw [hasReversed_cons hx] at hup
    rw [hasMember_cons hx]
    exact (List.mem_cons.mp hc).imp_right (ih hup)
  | case3 => cases hc

end

/-! ## The expression of a class -/

/-- The class that a closed bracket stands for. -/
def ClosedClass.charClass (cls : ClosedClass) : CharClass :=
  ⟨cls.negated, bodyItems cls.body⟩

/-- The class accepts what the list says, or all but that. -/
theorem ClosedClass.charClass_accepts (cls : ClosedClass) (c : Char) :
    cls.charClass.accepts {} c = true ↔ ¬ (HasMember cls.body c ↔ cls.negated = true) := by
  have h := bodyItems_accepts cls.negated cls.body c
  rw [Accepts, ne_eq, Bool.eq_iff_iff (a := lists c cls.body), lists_iff] at h
  exact h

/-- The expression of a class without a reversed range reads as that class, which a sign behind it may repeat. -/
theorem readsItem_members {negated : Bool} {body : List Char} (hne : body ≠ []) (hclose : ']' ∉ body.tail)
    (hup : hasReversed body = false) (sp : Spelling) :
    ReadsItem (Token.expression sp (.members negated body)) (.one (.member ⟨negated, bodyItems body⟩)) := by
  rw [members_expression]
  refine readsItem_class (bodyMembers_fit negated hclose) (bodyMembers_ne_nil negated hne)
    (head?_bodyMembers hne) fun position => ?_
  have hread := readMembers_of_upright (bodyMembers_isDash negated body)
    (by rwa [bodyMembers_map_char]) position
  rwa [bodyMembers_map_char] at hread

/-- A class alone takes the first character of a text if it accepts it. -/
theorem matchesStart_class (cls : CharClass) (c : Char) (rest : List Char) :
    (sequence [.one (.member cls)]).matchesStart {} (c :: rest) = cls.accepts {} c := by
  rw [Bool.eq_iff_iff, matchesStart_iff]
  simp [Regex.sequence, Spans, CharTest.accepts]

/-! ## Brackets of a segment -/

/-- The text of a closed bracket: an exclamation mark negates, and behind the first member the body has no closing
bracket. -/
theorem Closes.text {cs body rest : List Char} {negated : Bool} (h : Closes cs negated body rest) :
    cs = (if negated then ['!'] else []) ++ body ++ ']' :: rest ∧
      (negated = true ↔ cs.head? = some '!') ∧ body ≠ [] ∧ ']' ∉ body.tail := by
  cases h with
  | plain hc hbody => exact ⟨by simp, by simp [hc], by simp, hbody⟩
  | negated hbody => exact ⟨by simp, by simp, by simp, hbody⟩

/-- **Bracket classes mean their members.** Where a bracket of a segment is closed, the text between is a list of
members behind an exclamation mark that negates, which ends at the first closing bracket behind its first
member, and the translation goes on behind that. Unless a range of the list runs downwards, the expression
written for it is one class, alone and between others, which takes one character: one that is a member of the
list or lies in one of its ranges, or one that is not where the class is negated. Each character of the list is
a member, and so is a dash in first or last place. -/
theorem class_means_members {segment : List Char} {start : Nat} {cls : ClosedClass} (sp : Spelling)
    (hopen : segment[start]? = some '[') (hclose : closeClass? (segment.drop (start + 1)) = some cls) :
    let text := Token.expression sp (.members cls.negated cls.body)
    let test := Regex.one (.member cls.charClass)
    (segment = segment.take start ++
        '[' :: ((if cls.negated then ['!'] else []) ++ cls.body ++ ']' :: cls.rest) ∧
      (cls.negated = true ↔ segment[start + 1]? = some '!') ∧ cls.body ≠ [] ∧ ']' ∉ cls.body.tail) ∧
    (∀ afterRun, tokensFrom afterRun (segment.drop start) =
      .members cls.negated cls.body :: tokensFrom false cls.rest) ∧
    ((∀ range ∈ bodyRanges cls.body, range.1.toNat ≤ range.2.toNat) →
      (ReadsItem text test ∧ Regex.read text = .ok (sequence [test])) ∧
      (∀ c, cls.charClass.accepts {} c = true ↔ ¬ (HasMember cls.body c ↔ cls.negated = true)) ∧
      (∀ c rest, (sequence [test]).matchesStart {} (c :: rest) = cls.charClass.accepts {} c) ∧
      ∀ c ∈ cls.body, (c = '-' → cls.body.head? = some '-' ∨ cls.body.getLast? = some '-') →
        HasMember cls.body c) := by
  intro text test
  have hcloses : Closes (segment.drop (start + 1)) cls.negated cls.body cls.rest :=
    closeClass?_eq_some.mp hclose
  obtain ⟨htext, hnegated, hne, htail⟩ := hcloses.text
  have hdrop : segment.drop start = '[' :: segment.drop (start + 1) := by
    obtain ⟨hlt, hget⟩ := List.getElem?_eq_some_iff.mp hopen
    rw [List.drop_eq_getElem_cons hlt, hget]
  refine ⟨⟨?_, by rw [hnegated, List.head?_drop], hne, htail⟩, fun afterRun => ?_, fun hranges => ?_⟩
  · rw [← htext, ← hdrop, List.take_append_drop]
  · rw [hdrop, tokensFrom_class afterRun hcloses]
  · have hup := (hasReversed_eq_false cls.body).mpr hranges
    have hitem : ReadsItem text test := readsItem_members hne htail hup sp
    have hread : Regex.read text = .ok (sequence [test]) := by
      obtain ⟨s, hrun, hafter⟩ := hitem.reads.run {} (.inl rfl) rfl
      rw [Regex.read, hafter.readWith_eq hrun]
      rfl
    refine ⟨⟨hitem, hread⟩, cls.charClass_accepts, matchesStart_class _, fun c hc hplace => ?_⟩
    by_cases hdash : c = '-'
    · subst hdash
      exact (hplace rfl).elim (hasMember_first hup) (hasMember_last hup)
    · exact hasMember_of_ne_dash hup hc hdash

/-- Behind the exclamation mark a closing bracket, a backslash, an opening bracket, a caret and a dash in last place
are members beside a range. -/
theorem class_means_members_specials :
    let body := [']', '\\', '[', '^', 'a', '-', 'c', '-']
    let test := Regex.one (.member (ClosedClass.mk true body ['y']).charClass)
    Regex.read "[^\\]\\\\\\[^a-c-]".toList = .ok (sequence [test]) ∧
      ∀ c, (sequence [test]).matchesStart {} [c] = true ↔ ¬ HasMember body c := by
  have h := @class_means_members "x[!]\\[^a-c-]y".toList 1
    ⟨true, [']', '\\', '[', '^', 'a', '-', 'c', '-'], ['y']⟩ (Spelling.ofSeparator []) (by decide) (by decide)
  obtain ⟨⟨-, hread⟩, haccepts, hmatches, -⟩ := h.2.2 (by decide)
  exact ⟨hread, fun c => by rw [hmatches, haccepts, iff_true_right rfl]⟩

end FileDepot.Glob
