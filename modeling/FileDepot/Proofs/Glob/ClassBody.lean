import FileDepot.Glob.Expression
import FileDepot.Proofs.Regex.Ranges

/-!
# Bracket classes of patterns

What the body of a bracket class means, read from the left, and that its expression means the same.

Contents:

* `lists`, `Accepts` — the characters that a body lists, and those that its class accepts;
* `bodyRanges`, `hasReversed` — the ranges of the body, and that one of them runs downwards;
* `bodyItems` — the body as items of an expression, with `any_bodyItems` for their meaning;
* `classRanges`, `ends_classRanges` — the ranges as the expression of a class writes them;
* `scanned_members` — the expression of a class reads as these items unless a range runs downwards.
-/

namespace FileDepot.Glob

open Regex

/-- The members of a class, read from the left, hold the character. A dash between two members makes a
    range; in first or last place it is a member. -/
def lists (c : Char) : List Char → Bool
  | low :: '-' :: high :: rest => (low.toNat ≤ c.toNat && c.toNat ≤ high.toNat) || lists c rest
  | x :: rest => x == c || lists c rest
  | [] => false

/-- The class with these members, or with all but them, accepts the character. -/
def Accepts (negated : Bool) (body : List Char) (c : Char) : Prop :=
  lists c body ≠ negated

instance (negated : Bool) (body : List Char) (c : Char) : Decidable (Accepts negated body c) :=
  inferInstanceAs (Decidable (_ ≠ _))

/-- Some range among the members, read from the left, runs downwards. -/
def hasReversed : List Char → Bool
  | low :: '-' :: high :: rest => high.toNat < low.toNat || hasReversed rest
  | _ :: rest => hasReversed rest
  | [] => false

/-- The ranges among the members, read from the left, by the characters at their ends. -/
def bodyRanges : List Char → List (Char × Char)
  | low :: '-' :: high :: rest => (low, high) :: bodyRanges rest
  | _ :: rest => bodyRanges rest
  | [] => []

/-- The members of a class as items of an expression. -/
def bodyItems : List Char → List ClassItem
  | low :: '-' :: high :: rest => .range low high :: bodyItems rest
  | x :: rest => .char x :: bodyItems rest
  | [] => []

/-- **The items of a body hold what it lists.** -/
theorem any_bodyItems (o : Options) (body : List Char) (c : Char) :
    (bodyItems body).any (·.holds o c) = lists c body := by
  induction body using bodyItems.induct with
  | case1 low high rest ih => rw [bodyItems, List.any_cons, ih, lists, ClassItem.holds]
  | case2 x rest hx ih => rw [bodyItems, List.any_cons, ih, lists, ClassItem.holds] <;> exact hx
  | case3 => rfl

/-- A body that starts with no range is a member in front of a body. -/
theorem bodyItems_cons {x : Char} {rest : List Char} (h : ∀ high rest', rest ≠ '-' :: high :: rest') :
    bodyItems (x :: rest) = .char x :: bodyItems rest := by
  rw [bodyItems]
  exact h

theorem hasReversed_cons {x : Char} {rest : List Char} (h : ∀ high rest', rest ≠ '-' :: high :: rest') :
    hasReversed (x :: rest) = hasReversed rest := by
  rw [hasReversed]
  exact h

theorem bodyRanges_cons {x : Char} {rest : List Char} (h : ∀ high rest', rest ≠ '-' :: high :: rest') :
    bodyRanges (x :: rest) = bodyRanges rest := by
  rw [bodyRanges]
  exact h

theorem hasReversed_eq_false (body : List Char) :
    hasReversed body = false ↔ ∀ range ∈ bodyRanges body, range.1.toNat ≤ range.2.toNat := by
  induction body using bodyRanges.induct with
  | case1 low high rest ih => simp [hasReversed, bodyRanges, ih]
  | case2 x rest hx ih => rw [hasReversed_cons hx, bodyRanges_cons hx, ih]
  | case3 => simp [hasReversed, bodyRanges]

/-- A body runs downwards nowhere if no range does that an expression writes for it. -/
theorem hasReversed_eq_false_iff {body : List Char} {ranges : List WrittenRange}
    (h : ranges.map WrittenRange.ends = bodyRanges body) :
    hasReversed body = false ↔ ∀ r ∈ ranges, r.reversed = false := by
  rw [hasReversed_eq_false, ← h, List.forall_mem_map]
  simp [WrittenRange.reversed, WrittenRange.ends]

/-! ## Members as an expression spells them -/

/-- A member behind the first place. -/
def laterMember (c : Char) : Spelled :=
  ⟨classChar c, c⟩

/-- The members of a body as an expression spells them. -/
def bodyMembers (negated : Bool) : List Char → List Spelled
  | [] => []
  | c :: rest =>
    (if c = ']' ∨ (c = '^' ∧ negated = false) then ⟨['\\', c], c⟩ else laterMember c) ::
      rest.map laterMember

theorem laterMember_fits {c : Char} (hc : c ≠ ']') : (laterMember c).Fits := by
  by_cases h : c = '\\' ∨ c = '['
  · refine Or.inr ⟨by simp [laterMember, classChar, h], ?_⟩
    rcases h with h | h <;> simp [laterMember, h, specials]
  · refine Or.inl ⟨by simp [laterMember, classChar, h], ?_, hc⟩
    exact fun hslash => h (Or.inl hslash)

theorem laterMember_isDash (c : Char) : (laterMember c).isDash = (c == '-') := by
  by_cases h : c = '\\' ∨ c = '['
  · rcases h with h | h <;> simp [Spelled.isDash, laterMember, classChar, h]
  · simp [Spelled.isDash, laterMember, classChar, h]

@[simp] theorem bodyMembers_map_char (negated : Bool) (body : List Char) :
    (bodyMembers negated body).map Spelled.char = body := by
  have hlater : Spelled.char ∘ laterMember = id := rfl
  cases body with
  | nil => rfl
  | cons c rest =>
    simp only [bodyMembers, List.map_cons, List.map_map, hlater, List.map_id]
    split <;> rfl

/-- Behind the first place of the body of a class no closing bracket stands. -/
theorem bodyMembers_fit (negated : Bool) {body : List Char} (hclose : ']' ∉ body.tail) :
    ∀ a ∈ bodyMembers negated body, a.Fits := by
  cases body with
  | nil => simp [bodyMembers]
  | cons c rest =>
    intro a ha
    rcases List.mem_cons.mp ha with rfl | ha
    · split
      · next h =>
        refine Or.inr ⟨rfl, ?_⟩
        rcases h with h | ⟨h, -⟩ <;> simp [h, specials]
      · next h => exact laterMember_fits fun hc => h (Or.inl hc)
    · obtain ⟨d, hd, rfl⟩ := List.mem_map.mp ha
      exact laterMember_fits fun h => hclose (h ▸ hd)

theorem bodyMembers_isDash (negated : Bool) (body : List Char) :
    ∀ a ∈ bodyMembers negated body, a.isDash = (a.char == '-') := by
  cases body with
  | nil => simp [bodyMembers]
  | cons c rest =>
    intro a ha
    rcases List.mem_cons.mp ha with rfl | ha
    · split
      · next h => rcases h with h | ⟨h, -⟩ <;> simp [Spelled.isDash, h]
      · exact laterMember_isDash c
    · obtain ⟨d, -, rfl⟩ := List.mem_map.mp ha
      exact laterMember_isDash d

/-- The body of a class is written as its members. -/
theorem writtenMembers_bodyMembers (negated : Bool) (body : List Char) :
    writtenMembers (bodyMembers negated body) = classBody negated body := by
  have hlater (rest : List Char) : writtenMembers (rest.map laterMember) = rest.flatMap classChar := by
    simp [writtenMembers, List.flatMap_map, laterMember]
  cases body with
  | nil => rfl
  | cons c rest =>
    have hcons (a : Spelled) : writtenMembers (a :: rest.map laterMember) =
        a.written ++ rest.flatMap classChar := by
      rw [← hlater]
      rfl
    rw [bodyMembers, hcons]
    by_cases hbracket : c = ']'
    · simp [classBody, hbracket, classChar]
    · by_cases hcaret : c = '^'
      · cases negated <;> simp [classBody, hcaret, classChar, laterMember]
      · have hbody : classBody negated (c :: rest) = (c :: rest).flatMap classChar := by
          simp only [classBody]
          split
          · next heq => exact absurd (List.cons.inj heq).1 hbracket
          · next heq => exact absurd (List.cons.inj heq).1 hcaret
          · rfl
        rw [hbody, if_neg (by simp [hbracket, hcaret])]
        rfl

/-! ## Reading them -/

section

variable {members : List Spelled} (hdash : ∀ a ∈ members, a.isDash = (a.char == '-'))

include hdash

/-- Members without a reversed range read as the items of their characters. -/
theorem readMembers_of_upright (h : hasReversed (members.map Spelled.char) = false) (position : Nat) :
    readMembers position members = .ok (bodyItems (members.map Spelled.char)) := by
  induction position, members using readMembers.induct with
  | case1 position low dash high rest hd hle ih =>
    have hchar : dash.char = '-' := by simpa [hdash dash (by simp)] using hd
    simp only [List.map_cons, hchar, hasReversed, Bool.or_eq_false_iff] at h
    rw [readMembers, if_pos hd, if_pos hle, ih (fun a ha => hdash a (by simp [ha])) h.2]
    simp [Except.map, bodyItems, hchar]
  | case2 position low dash high rest hd hle =>
    have hchar : dash.char = '-' := by simpa [hdash dash (by simp)] using hd
    simp only [List.map_cons, hchar, hasReversed, Bool.or_eq_false_iff, decide_eq_false_iff_not] at h
    omega
  | case3 position low dash high rest hd ih =>
    have hchar : dash.char ≠ '-' := by simpa [hdash dash (by simp)] using hd
    have hrange : ∀ high' rest', (dash :: high :: rest).map Spelled.char ≠ '-' :: high' :: rest' := by
      simp [hchar]
    rw [List.map_cons, hasReversed_cons hrange] at h
    rw [readMembers, if_neg hd, ih (fun a ha => hdash a (List.mem_cons_of_mem _ ha)) h,
      List.map_cons (l := dash :: high :: rest), bodyItems_cons hrange]
    rfl
  | case4 position a rest hshort ih =>
    have hrange : ∀ high' rest', rest.map Spelled.char ≠ '-' :: high' :: rest' := by
      intro high' rest' heq
      rcases rest with _ | ⟨b, _ | ⟨c, ds⟩⟩
      · simp at heq
      · simp at heq
      · exact absurd rfl (hshort b c ds)
    rw [List.map_cons, hasReversed_cons hrange] at h
    rw [readMembers, ih (fun b hb => hdash b (by simp [hb])) h, List.map_cons, bodyItems_cons hrange]
    · rfl
    · exact hshort
  | case5 => rfl

/-- The ranges among members are those of the body that they spell. -/
theorem ends_memberRanges (position : Nat) :
    (memberRanges position members).map WrittenRange.ends = bodyRanges (members.map Spelled.char) := by
  induction position, members using memberRanges.induct with
  | case1 position low dash high rest hd ih =>
    have hchar : dash.char = '-' := by simpa [hdash dash (by simp)] using hd
    rw [memberRanges, if_pos hd, List.map_cons, ih fun a ha => hdash a (by simp [ha])]
    simp [bodyRanges, hchar, WrittenRange.ends]
  | case2 position low dash high rest hd ih =>
    have hchar : dash.char ≠ '-' := by simpa [hdash dash (by simp)] using hd
    rw [memberRanges, if_neg hd, ih fun a ha => hdash a (List.mem_cons_of_mem _ ha),
      List.map_cons (l := dash :: high :: rest), bodyRanges_cons]
    simp [hchar]
  | case3 position a rest hshort ih =>
    rw [memberRanges_short hshort, ih fun b hb => hdash b (List.mem_cons_of_mem _ hb), List.map_cons,
      bodyRanges_cons]
    intro high' rest' heq
    rcases rest with _ | ⟨b, _ | ⟨c, ds⟩⟩
    · simp at heq
    · simp at heq
    · exact absurd rfl (hshort b c ds)
  | case4 => rfl

end

/-! ## Whole classes -/

/-- A class that is not negated does not look negated. -/
theorem head?_bodyMembers {negated : Bool} {body : List Char} (hne : body ≠ [])
    (hnegated : negated = false) :
    (writtenMembers (bodyMembers negated body) ++ [']']).head? ≠ some '^' := by
  cases body with
  | nil => exact absurd rfl hne
  | cons c rest =>
    by_cases h : c = ']' ∨ c = '^'
    · simp [bodyMembers, hnegated, h, writtenMembers]
    · have hc : c ≠ ']' ∧ c ≠ '^' := not_or.mp h
      by_cases hslash : c = '\\' ∨ c = '['
      · simp [bodyMembers, hnegated, hc, writtenMembers, laterMember, classChar, hslash]
      · simp [bodyMembers, hnegated, hc, writtenMembers, laterMember, classChar, hslash]

theorem members_expression (sp : Spelling) (negated : Bool) (body : List Char) :
    Token.expression sp (.members negated body) =
      '[' :: negation negated ++ (writtenMembers (bodyMembers negated body) ++ [']']) := by
  rw [writtenMembers_bodyMembers, Token.expression, negation, ← List.append_assoc]

theorem bodyMembers_ne_nil (negated : Bool) {body : List Char} (hne : body ≠ []) :
    bodyMembers negated body ≠ [] := by
  cases body with
  | nil => exact absurd rfl hne
  | cons c rest => exact List.cons_ne_nil _ _

/-- The ranges in the expression of a class that starts at an offset. -/
def classRanges (negated : Bool) (body : List Char) (position : Nat) : List WrittenRange :=
  memberRanges (position + 1 + (negation negated).length) (bodyMembers negated body)

/-- **The expression of a class writes the ranges of its body.** -/
theorem ends_classRanges (negated : Bool) (body : List Char) (position : Nat) :
    (classRanges negated body position).map WrittenRange.ends = bodyRanges body := by
  rw [classRanges, ends_memberRanges (bodyMembers_isDash negated body), bodyMembers_map_char]

/-- **The expression of a class reads as its items.** No range may run downwards. -/
theorem scanned_members {negated : Bool} {body : List Char} (hne : body ≠ []) (hclose : ']' ∉ body.tail)
    (sp : Spelling) :
    Scanned (Token.expression sp (.members negated body)) (classRanges negated body)
      [.one (.member ⟨negated, bodyItems body⟩)] := by
  rw [members_expression]
  refine scanned_class (bodyMembers_fit negated hclose) (bodyMembers_ne_nil negated hne)
    (head?_bodyMembers hne) fun position hup => ?_
  have hdash := bodyMembers_isDash negated body
  have hnone := (hasReversed_eq_false_iff (ends_memberRanges hdash position)).mpr hup
  have hread := readMembers_of_upright hdash hnone position
  rwa [bodyMembers_map_char] at hread

end FileDepot.Glob
