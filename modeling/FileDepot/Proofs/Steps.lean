import Mathlib.Logic.Basic

/-!
# Steps that may fail

A step changes a state and gives an answer or fails. What it has changed before it fails stays changed.

Contents:

* `Step.run_bind`, `Step.failed_bind`, `Step.run_then_pure`, `Step.run_then` — two steps one after another;
* `Step.run_tryCatch` — a failure that is answered;
* `Step.run_liftM`, `Step.run_lift`, `Step.run_get`, `Step.run_set` — the steps of which others are made;
* `Step.Keeps` — a step leaves what is seen of the state;
* `Step.Maintains` — a step leaves an invariant, and what it answers or fails with is known;
* `Step.Leads` — what a step leads to from what is known of the state.
-/

namespace FileDepot.Step

variable {ε σ α β γ : Type}

/-- A step after another one runs on the state that the first leaves, if the first succeeds. -/
theorem run_bind (m : ExceptT ε (StateM σ) α) (f : α → ExceptT ε (StateM σ) β) (s : σ) :
    (m >>= f).run s =
      match m.run s with
      | (.ok a, s) => (f a).run s
      | (.error e, s) => (.error e, s) := by
  show (ExceptT.bind m f) s = _
  simp only [ExceptT.bind, ExceptT.mk, bind, StateT.bind]
  rcases h : m.run s with ⟨answer, s'⟩
  have hm : m s = (answer, s') := h
  rw [hm]
  cases answer <;> rfl

/-- What stands behind a step that has failed is not done. -/
theorem failed_bind {m : ExceptT ε (StateM σ) α} {s : σ} {e : ε} (h : (m.run s).1 = .error e)
    (f : α → ExceptT ε (StateM σ) β) : ((m >>= f).run s).1 = .error e := by
  rw [run_bind]
  rcases hrun : m.run s with ⟨answer, s'⟩
  rw [hrun] at h
  obtain rfl : answer = .error e := h
  rfl

/-- What is made of the answer of a step. -/
theorem run_then_pure (m : ExceptT ε (StateM σ) α) (f : α → β) (s : σ) :
    (m >>= fun a => pure (f a)).run s = ((m.run s).1.map f, (m.run s).2) := by
  rw [run_bind]
  rcases m.run s with ⟨answer, s'⟩
  cases answer <;> rfl

@[simp] theorem run_liftM (x : Except ε α) (s : σ) :
    (liftM x : ExceptT ε (StateM σ) α).run s = (x, s) := by
  cases x <;> rfl

@[simp] theorem run_lift (step : StateM σ α) (s : σ) :
    (liftM step : ExceptT ε (StateM σ) α).run s = (.ok (step.run s).1, (step.run s).2) := rfl

@[simp] theorem run_get (s : σ) : (get : ExceptT ε (StateM σ) σ).run s = (.ok s, s) := rfl

@[simp] theorem run_set (s' s : σ) :
    (set s' : ExceptT ε (StateM σ) PUnit).run s = (.ok (), s') := rfl

/-- A failure of a step that another step answers. -/
theorem run_tryCatch (m : ExceptT ε (StateM σ) α) (f : ε → ExceptT ε (StateM σ) α) (s : σ) :
    (tryCatch m f).run s =
      match m.run s with
      | (.ok a, s) => (.ok a, s)
      | (.error e, s) => (f e).run s := by
  show (ExceptT.tryCatch m f) s = _
  simp only [ExceptT.tryCatch, ExceptT.mk, bind, StateT.bind]
  rcases h : m.run s with ⟨answer, s'⟩
  have hm : m s = (answer, s') := h
  rw [hm]
  cases answer <;> rfl

/-- A step that does not fail is followed by the next one on the state that it leaves. -/
theorem run_then (m : StateM σ α) (f : α → StateM σ β) (s : σ) :
    (m >>= f).run s = (f (m.run s).1).run (m.run s).2 := rfl

/-- A step leaves what is seen of the state, whether or not it succeeds. -/
def Keeps (view : σ → γ) (m : ExceptT ε (StateM σ) α) : Prop :=
  ∀ s, view (m.run s).2 = view s

namespace Keeps

variable {view : σ → γ}

theorem pure (a : α) : Keeps view (pure a : ExceptT ε (StateM σ) α) := fun _ => rfl

theorem throw (f : ε) : Keeps view (throw f : ExceptT ε (StateM σ) α) := fun _ => rfl

theorem liftM (x : Except ε α) : Keeps view (liftM x : ExceptT ε (StateM σ) α) := by
  intro s
  rw [run_liftM]

theorem get : Keeps view (get : ExceptT ε (StateM σ) σ) := fun _ => rfl

theorem modify {f : σ → σ} (h : ∀ s, view (f s) = view s) :
    Keeps view (modify f : ExceptT ε (StateM σ) PUnit) := h

/-- Two steps one after another leave what both leave. -/
theorem bind {m : ExceptT ε (StateM σ) α} {f : α → ExceptT ε (StateM σ) β}
    (hm : Keeps view m) (hf : ∀ a, Keeps view (f a)) : Keeps view (m >>= f) := by
  intro s
  have hs := hm s
  rw [run_bind]
  rcases h : m.run s with ⟨answer, s'⟩
  rw [h] at hs
  cases answer with
  | ok a => exact (hf a s').trans hs
  | error f => exact hs

theorem forM {m : α → ExceptT ε (StateM σ) PUnit} (h : ∀ a, Keeps view (m a)) (as : List α) :
    Keeps view (as.forM m) := by
  induction as with
  | nil => exact Keeps.pure _
  | cons a as ih =>
    show Keeps view (m a >>= fun _ => as.forM m)
    exact (h a).bind fun _ => ih

end Keeps

/-! ## Invariants -/

/-- Where `I` holds of the state, the step leaves it so, answers with what is `P`, and fails with what is `E`. -/
def Maintains (I : σ → Prop) (P : α → Prop) (E : ε → Prop) (m : ExceptT ε (StateM σ) α) : Prop :=
  ∀ s, I s → I (m.run s).2 ∧ (∀ a, (m.run s).1 = .ok a → P a) ∧ ∀ e, (m.run s).1 = .error e → E e

namespace Maintains

variable {I : σ → Prop} {P : α → Prop} {Q : β → Prop} {E E' : ε → Prop}

theorem pure {a : α} (h : P a) : Maintains I P E (pure a : ExceptT ε (StateM σ) α) := by
  intro s hs
  refine ⟨hs, ?_, fun e he => nomatch he⟩
  intro a' ha'
  obtain rfl : a = a' := Except.ok.inj ha'
  exact h

theorem throw {e : ε} (h : E e) : Maintains I P E (throw e : ExceptT ε (StateM σ) α) := by
  intro s hs
  refine ⟨hs, fun a ha => (nomatch ha), ?_⟩
  intro e' he'
  obtain rfl : e = e' := Except.error.inj he'
  exact h

theorem get : Maintains I I E (get : ExceptT ε (StateM σ) σ) := by
  intro s hs
  refine ⟨hs, ?_, fun e he => nomatch he⟩
  intro s' hs'
  obtain rfl : s = s' := Except.ok.inj hs'
  exact hs

theorem modify {f : σ → σ} (h : ∀ s, I s → I (f s)) :
    Maintains I (fun _ => True) E (modify f : ExceptT ε (StateM σ) PUnit) :=
  fun s hs => ⟨h s hs, fun _ _ => trivial, fun _ he => nomatch he⟩

/-- A step that always answers fails in no way at all. -/
theorem of_answers {m : ExceptT ε (StateM σ) α} (hm : Maintains I P E m)
    (h : ∀ s, I s → ∃ a t, m.run s = (.ok a, t)) : Maintains I P E' m := by
  intro s hs
  obtain ⟨hleft, hanswer, -⟩ := hm s hs
  refine ⟨hleft, hanswer, ?_⟩
  intro e he
  obtain ⟨a, t, hrun⟩ := h s hs
  rw [hrun] at he
  cases he

/-- What the first of two steps answers with is known to the second. -/
theorem bind {m : ExceptT ε (StateM σ) α} {f : α → ExceptT ε (StateM σ) β} (hm : Maintains I P E m)
    (hf : ∀ a, P a → Maintains I Q E (f a)) : Maintains I Q E (m >>= f) := by
  intro s hs
  obtain ⟨hleft, hanswer, hfails⟩ := hm s hs
  rw [run_bind]
  rcases h : m.run s with ⟨answer, s'⟩
  rw [h] at hleft hanswer hfails
  cases answer with
  | ok a => exact hf a (hanswer a rfl) s' hleft
  | error e =>
    refine ⟨hleft, fun b hb => (nomatch hb), ?_⟩
    intro e' he'
    obtain rfl : e = e' := Except.error.inj he'
    exact hfails e rfl

/-- What stands behind a failure is not done. -/
theorem throw_bind {e : ε} (h : E e) (f : α → ExceptT ε (StateM σ) β) : Maintains I Q E (MonadExcept.throw e >>= f) :=
  (Maintains.throw h : Maintains I (fun _ => False) E _).bind fun _ ha => ha.elim

theorem forM {m : α → ExceptT ε (StateM σ) PUnit} {as : List α}
    (h : ∀ a ∈ as, Maintains I (fun _ => True) E (m a)) : Maintains I (fun _ => True) E (as.forM m) := by
  induction as with
  | nil => exact .pure trivial
  | cons a as ih =>
    obtain ⟨ha, has⟩ := List.forall_mem_cons.mp h
    show Maintains I (fun _ => True) E (m a >>= fun _ => as.forM m)
    exact ha.bind fun _ _ => ih has

theorem mapM {f : α → ExceptT ε (StateM σ) β} {as : List α}
    (h : ∀ a ∈ as, Maintains I (fun _ => True) E (f a)) : Maintains I (fun _ => True) E (as.mapM f) := by
  induction as with
  | nil =>
    rw [List.mapM_nil]
    exact .pure trivial
  | cons a as ih =>
    obtain ⟨ha, has⟩ := List.forall_mem_cons.mp h
    rw [List.mapM_cons]
    exact ha.bind fun _ _ => (ih has).bind fun _ _ => .pure trivial

end Maintains

/-! ## From one state to the next -/

/-- From a state as `I` says, the step gives an answer and leaves a state as `Q` says, or fails with what is `E`. -/
def Leads (I : σ → Prop) (Q : α → σ → Prop) (E : ε → Prop) (m : ExceptT ε (StateM σ) α) : Prop :=
  ∀ s, I s → (∀ a t, m.run s = (.ok a, t) → Q a t) ∧ ∀ e t, m.run s = (.error e, t) → E e

namespace Leads

variable {I J : σ → Prop} {Q : α → σ → Prop} {R : β → σ → Prop} {E : ε → Prop}

theorem of_maintains {P : α → Prop} {m : ExceptT ε (StateM σ) α} (h : Maintains I P E m) :
    Leads I (fun a t => I t ∧ P a) E m := by
  intro s hs
  obtain ⟨hleft, hanswer, hfails⟩ := h s hs
  refine ⟨?_, ?_⟩
  · intro a t hrun
    rw [hrun] at hleft hanswer
    exact ⟨hleft, hanswer a rfl⟩
  · intro e t hrun
    rw [hrun] at hfails
    exact hfails e rfl

theorem pure {a : α} (h : ∀ s, I s → Q a s) : Leads I Q E (pure a : ExceptT ε (StateM σ) α) := by
  intro s hs
  refine ⟨?_, fun e t he => nomatch he⟩
  intro a' t hrun
  obtain ⟨ha, rfl⟩ := Prod.mk.inj hrun
  obtain rfl := Except.ok.inj ha
  exact h s hs

theorem throw {e : ε} (h : E e) : Leads I Q E (throw e : ExceptT ε (StateM σ) α) := by
  intro s hs
  refine ⟨fun a t ha => (nomatch ha), ?_⟩
  intro e' t hrun
  obtain ⟨he, -⟩ := Prod.mk.inj hrun
  obtain rfl := Except.error.inj he
  exact h

/-- What stands behind a failure is not done. -/
theorem throw_bind {e : ε} (h : E e) (f : α → ExceptT ε (StateM σ) β) : Leads I R E (MonadExcept.throw e >>= f) := by
  intro s _
  refine ⟨fun b t hb => (nomatch congrArg Prod.fst hb), ?_⟩
  intro e' t he'
  obtain rfl : e = e' := Except.error.inj (congrArg Prod.fst he')
  exact h

/-- The second of two steps starts from what the first leads to. -/
theorem bind {m : ExceptT ε (StateM σ) α} {f : α → ExceptT ε (StateM σ) β} (hm : Leads I Q E m)
    (hf : ∀ a, Leads (Q a) R E (f a)) : Leads I R E (m >>= f) := by
  intro s hs
  obtain ⟨hanswer, hfails⟩ := hm s hs
  rw [run_bind]
  rcases hrun : m.run s with ⟨answer, t⟩
  cases answer with
  | ok a => exact hf a t (hanswer a t hrun)
  | error e =>
    refine ⟨fun b t' hb => (nomatch congrArg Prod.fst hb), ?_⟩
    intro e' t' he'
    obtain rfl : e = e' := Except.error.inj (congrArg Prod.fst he')
    exact hfails e t hrun

/-- A step that leaves an invariant comes first. -/
theorem after {P : α → Prop} {m : ExceptT ε (StateM σ) α} {f : α → ExceptT ε (StateM σ) β} (hm : Maintains I P E m)
    (hf : ∀ a, P a → Leads I R E (f a)) : Leads I R E (m >>= f) :=
  (of_maintains hm).bind fun a s hs => hf a hs.2 s hs.1

/-- Less may be asked for, and more be given. -/
theorem imp {Q' : α → σ → Prop} {m : ExceptT ε (StateM σ) α} (hm : Leads I Q E m) (hI : ∀ s, J s → I s)
    (hQ : ∀ a s, Q a s → Q' a s) : Leads J Q' E m :=
  fun s hs => ⟨fun a t hrun => hQ a t ((hm s (hI s hs)).1 a t hrun), (hm s (hI s hs)).2⟩

/-- A loop leads from what each of its rounds keeps to the same. -/
theorem forIn {m : α → ExceptT ε (StateM σ) (ForInStep PUnit)} {as : List α}
    (h : ∀ a ∈ as, Leads I (fun r t => r = .yield PUnit.unit ∧ I t) E (m a)) :
    Leads I (fun _ => I) E (forIn as PUnit.unit fun a _ => m a) := by
  induction as with
  | nil =>
    rw [List.forIn_nil]
    exact .pure fun s hs => hs
  | cons a as ih =>
    obtain ⟨ha, has⟩ := List.forall_mem_cons.mp h
    rw [List.forIn_cons]
    refine ha.bind fun r => ?_
    intro s hs
    obtain ⟨rfl, hs⟩ := hs
    exact ih has s hs

/-- A loop of which each round is one step that keeps an invariant. -/
theorem forEach {m : α → ExceptT ε (StateM σ) PUnit} {as : List α} (h : ∀ a ∈ as, Leads I (fun _ => I) E (m a)) :
    Leads I (fun _ => I) E (ForIn.forIn as PUnit.unit fun a _ => do
      m a
      Pure.pure (ForInStep.yield PUnit.unit)) :=
  forIn fun a ha => (h a ha).bind fun _ => .pure fun _ hs => ⟨rfl, hs⟩

end Leads

end FileDepot.Step
