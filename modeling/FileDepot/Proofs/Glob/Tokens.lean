import FileDepot.Glob.Basic
import FileDepot.Proofs.Text.Splitting

/-!
# The parts of a segment

How the text of a segment falls into its parts: one equation for each way in which a segment can start, and
what it is for a bracket to be closed.

Contents:

* `Closes` — the text behind a bracket that is closed, and `closeClass?_eq_some` for what finds it;
* `tokensFrom_run`, `tokensFrom_class`, … — the first part of a segment and those behind it;
* `Token.Closed`, `tokensFrom_closed` — the classes that segments have;
* `mem_of_literal_mem_tokensFrom` — the other characters are those of the text.
-/

namespace FileDepot.Glob

/-! ## Closed brackets -/

/-- The text behind a bracket closes it: the body has at least one member, behind which it ends at the first
    closing bracket. An exclamation mark in front of the body negates. -/
inductive Closes : List Char → Bool → List Char → List Char → Prop
  | plain {c : Char} {body rest : List Char} (hc : c ≠ '!') (hbody : ']' ∉ body) :
    Closes (c :: body ++ ']' :: rest) false (c :: body) rest
  | negated {c : Char} {body rest : List Char} (hbody : ']' ∉ body) :
    Closes ('!' :: c :: body ++ ']' :: rest) true (c :: body) rest

/-- The text behind a class is the end of the whole text. -/
theorem Closes.suffix {cs body rest : List Char} {negated : Bool} (h : Closes cs negated body rest) :
    rest <:+ cs := by
  cases h with
  | @plain c body _ _ _ => exact ⟨c :: body ++ [']'], by simp⟩
  | @negated c body _ _ => exact ⟨'!' :: c :: body ++ [']'], by simp⟩

theorem Closes.ne_nil {cs body rest : List Char} {negated : Bool} (h : Closes cs negated body rest) :
    body ≠ [] := by
  cases h <;> simp

theorem Closes.tail {cs body rest : List Char} {negated : Bool} (h : Closes cs negated body rest) :
    ']' ∉ body.tail := by
  cases h <;> assumption

/-- The body of the class that is open in front of the text and not negated, and the text behind it. -/
def closedBody? (members : List Char) : Option (List Char × List Char) :=
  let lead := if members.head? == some ']' then [']'] else []
  (Text.cutAt? ']' (members.drop lead.length)).map fun (body, rest) => (lead ++ body, rest)

theorem closeClass?_eq (cs : List Char) :
    closeClass? cs =
      if cs.head? == some '!' then (closedBody? (cs.drop 1)).map fun (body, rest) => ⟨true, body, rest⟩
      else (closedBody? cs).map fun (body, rest) => ⟨false, body, rest⟩ := by
  by_cases h : (cs.head? == some '!') = true <;> simp [closeClass?, closedBody?, h, Function.comp_def]

theorem closedBody?_eq_some {members body rest : List Char} :
    closedBody? members = some (body, rest) ↔
      ∃ c b, body = c :: b ∧ ']' ∉ b ∧ members = c :: b ++ ']' :: rest := by
  simp only [closedBody?, Option.map_eq_some_iff, Prod.exists, Prod.mk.injEq, Text.cutAt?_eq_some]
  cases members with
  | nil => simp
  | cons d members =>
    by_cases hd : d = ']'
    · subst hd
      simp only [List.head?_cons, beq_self_eq_true, if_true, List.length_singleton, List.drop_succ_cons,
        List.drop_zero, List.singleton_append]
      constructor
      · rintro ⟨a, b, ⟨rfl, ha⟩, rfl, rfl⟩
        exact ⟨']', a, rfl, ha, rfl⟩
      · rintro ⟨c, b, rfl, hb, heq⟩
        obtain ⟨rfl, rfl⟩ := List.cons.inj heq
        exact ⟨b, rest, ⟨rfl, hb⟩, rfl, rfl⟩
    · simp only [List.head?_cons, Option.some_beq_some, beq_iff_eq, hd, if_false, List.length_nil,
        List.drop_zero, List.nil_append]
      constructor
      · rintro ⟨a, b, ⟨heq, ha⟩, rfl, rfl⟩
        cases a with
        | nil => exact absurd (List.cons.inj heq).1 hd
        | cons c a => exact ⟨c, a, rfl, fun h => ha (List.mem_cons_of_mem _ h), heq⟩
      · rintro ⟨c, b, rfl, hb, heq⟩
        obtain ⟨rfl, rfl⟩ := List.cons.inj heq
        exact ⟨d :: b, rest, ⟨rfl, by simp [hb, Ne.symm hd]⟩, rfl, rfl⟩

/-- **A class is found where the bracket is closed.** -/
theorem closeClass?_eq_some {cs body rest : List Char} {negated : Bool} :
    closeClass? cs = some ⟨negated, body, rest⟩ ↔ Closes cs negated body rest := by
  rw [closeClass?_eq]
  by_cases hhead : cs.head? = some '!'
  · obtain ⟨members, rfl⟩ : ∃ members, cs = '!' :: members := List.head?_eq_some_iff.mp hhead
    simp only [List.head?_cons, beq_self_eq_true, if_true, List.drop_succ_cons, List.drop_zero,
      Option.map_eq_some_iff, Prod.exists, ClosedClass.mk.injEq, closedBody?_eq_some]
    constructor
    · rintro ⟨_, _, ⟨c, b, rfl, hb, rfl⟩, rfl, rfl, rfl⟩
      exact .negated hb
    · intro h
      cases h with
      | plain hc _ => exact absurd rfl hc
      | negated hb => exact ⟨_, _, ⟨_, _, rfl, hb, rfl⟩, rfl, rfl, rfl⟩
  · simp only [beq_iff_eq, hhead, if_false, Option.map_eq_some_iff, Prod.exists, ClosedClass.mk.injEq,
      closedBody?_eq_some]
    constructor
    · rintro ⟨_, _, ⟨c, b, rfl, hb, rfl⟩, rfl, rfl, rfl⟩
      exact .plain (fun hc => hhead (by simp [hc])) hb
    · intro h
      cases h with
      | plain _ hb => exact ⟨_, _, ⟨_, _, rfl, hb, rfl⟩, rfl, rfl, rfl⟩
      | negated _ => exact absurd rfl hhead

/-- Where no class is found the bracket is not closed. -/
theorem closeClass?_eq_none {cs : List Char} :
    closeClass? cs = none ↔ ∀ negated body rest, ¬ Closes cs negated body rest := by
  rw [Option.eq_none_iff_forall_ne_some]
  constructor
  · intro h negated body rest hcls
    exact h _ (closeClass?_eq_some.mpr hcls)
  · rintro h ⟨negated, body, rest⟩ hcls
    exact h _ _ _ (closeClass?_eq_some.mp hcls)

/-- A bracket is closed in one way only. -/
theorem Closes.unique {cs body body' rest rest' : List Char} {negated negated' : Bool}
    (h : Closes cs negated body rest) (h' : Closes cs negated' body' rest') :
    negated = negated' ∧ body = body' ∧ rest = rest' := by
  have heq := (closeClass?_eq_some.mpr h).symm.trans (closeClass?_eq_some.mpr h')
  simpa using heq

/-! ## The first part of a segment -/

@[simp] theorem tokensFrom_nil (afterRun : Bool) : tokensFrom afterRun [] = [] := by
  rw [tokensFrom]

theorem tokensFrom_run (afterRun : Bool) (cs : List Char) :
    tokensFrom afterRun ('*' :: cs) = (if afterRun then [] else [.run]) ++ tokensFrom true cs := by
  rw [tokensFrom]
  cases afterRun <;> simp

theorem tokensFrom_single (afterRun : Bool) (cs : List Char) :
    tokensFrom afterRun ('?' :: cs) = .single :: tokensFrom false cs := by
  rw [tokensFrom]
  simp

theorem tokensFrom_class (afterRun : Bool) {cs body rest : List Char} {negated : Bool}
    (h : Closes cs negated body rest) :
    tokensFrom afterRun ('[' :: cs) = .members negated body :: tokensFrom false rest := by
  have hclass := closeClass?_eq_some.mpr h
  rw [tokensFrom, if_neg (by decide), if_neg (by decide), if_pos rfl]
  split
  · next cls hcls =>
    obtain rfl := Option.some.inj (hcls.symm.trans hclass)
    rfl
  · next hnone => exact absurd (hnone.symm.trans hclass) (by simp)

theorem tokensFrom_bracket (afterRun : Bool) {cs : List Char}
    (h : ∀ negated body rest, ¬ Closes cs negated body rest) :
    tokensFrom afterRun ('[' :: cs) = .literal '[' :: tokensFrom false cs := by
  rw [tokensFrom, if_neg (by decide), if_neg (by decide), if_pos rfl]
  split
  · next cls hcls => exact absurd (closeClass?_eq_some.mp hcls) (h _ _ _)
  · rfl

theorem tokensFrom_literal (afterRun : Bool) {c : Char} {cs : List Char}
    (hc : c ≠ '*' ∧ c ≠ '?' ∧ c ≠ '[') :
    tokensFrom afterRun (c :: cs) = .literal c :: tokensFrom false cs := by
  rw [tokensFrom, if_neg hc.1, if_neg hc.2.1, if_neg hc.2.2]

/-! ## Classes of a segment -/

/-- A class has a body, and a closing bracket is a member in first place only. -/
def Token.Closed : Token → Prop
  | .members _ body => body ≠ [] ∧ ']' ∉ body.tail
  | _ => True

theorem tokensFrom_closed (afterRun : Bool) (cs : List Char) :
    ∀ t ∈ tokensFrom afterRun cs, t.Closed := by
  induction afterRun, cs using tokensFrom.induct with
  | case1 => simp
  | case2 cs ih => simpa [tokensFrom_run] using ih
  | case3 afterRun cs hrun ih => simpa [tokensFrom_run, hrun, Token.Closed] using ih
  | case4 afterRun cs _ ih => simpa [tokensFrom_single, Token.Closed] using ih
  | case5 afterRun cs cls hcls _ _ ih =>
    have hclosed := closeClass?_eq_some.mp hcls
    rw [tokensFrom_class afterRun hclosed]
    exact List.forall_mem_cons.mpr ⟨⟨hclosed.ne_nil, hclosed.tail⟩, ih⟩
  | case6 afterRun cs hnone _ _ ih =>
    rw [tokensFrom_bracket afterRun (closeClass?_eq_none.mp hnone)]
    exact List.forall_mem_cons.mpr ⟨trivial, ih⟩
  | case7 afterRun c cs hrun hsingle hbracket ih =>
    rw [tokensFrom_literal afterRun ⟨hrun, hsingle, hbracket⟩]
    exact List.forall_mem_cons.mpr ⟨trivial, ih⟩

/-- The literal characters of a segment are among its characters. -/
theorem mem_of_literal_mem_tokensFrom {afterRun : Bool} {cs : List Char} {d : Char}
    (h : .literal d ∈ tokensFrom afterRun cs) : d ∈ cs := by
  induction afterRun, cs using tokensFrom.induct with
  | case1 => simp at h
  | case2 cs ih => exact List.mem_cons_of_mem _ (ih (by simpa [tokensFrom_run] using h))
  | case3 afterRun cs hrun ih =>
    exact List.mem_cons_of_mem _ (ih (by simpa [tokensFrom_run, hrun] using h))
  | case4 afterRun cs _ ih =>
    exact List.mem_cons_of_mem _ (ih (by simpa [tokensFrom_single] using h))
  | case5 afterRun cs cls hcls _ _ ih =>
    have hclosed := closeClass?_eq_some.mp hcls
    exact List.mem_cons_of_mem _
      (hclosed.suffix.subset (ih (by simpa [tokensFrom_class afterRun hclosed] using h)))
  | case6 afterRun cs hnone _ _ ih =>
    rw [tokensFrom_bracket afterRun (closeClass?_eq_none.mp hnone)] at h
    rcases List.mem_cons.mp h with h | h
    · simp [Token.literal.inj h]
    · exact List.mem_cons_of_mem _ (ih h)
  | case7 afterRun c cs hrun hsingle hbracket ih =>
    rw [tokensFrom_literal afterRun ⟨hrun, hsingle, hbracket⟩] at h
    rcases List.mem_cons.mp h with h | h
    · simp [Token.literal.inj h]
    · exact List.mem_cons_of_mem _ (ih h)

end FileDepot.Glob
