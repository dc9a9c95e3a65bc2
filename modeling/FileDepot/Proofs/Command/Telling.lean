import FileDepot.Command.Outcome
import FileDepot.Proofs.Steps

/-!
# What is told at a desk

The operations on a store tell what they do. Where nobody refuses a message this changes nothing of what they do at a
desk; the first message that is refused ends them.

Contents:

* `Desk.onSession_run` — a step of the session at a desk;
* `Session.hearAll` — messages heard in turn, up to the first that is refused;
* `NotingM`, `note`, `messages` — what a step tells if nobody refuses it;
* `Tells` — a step at a desk that tells, next to the same step on a store where nobody listens, with `Tells.next` and
  `Tells.bind` for one step after another;
* `Template.tells_find`, `Template.tells_delete`, `Template.tells_resources`, … — the operations of a template;
* `Command.messages`, `Command.hearing`, `Command.Heard` — what a command tells, and whether all of it is heard.
-/

namespace FileDepot

/-- A step of the session leaves the rest of the desk. -/
theorem Desk.onSession_run {α : Type} (step : SessionM α) (d : Desk) :
    (onSession step).run d = ((step.run d.session).1, { d with session := (step.run d.session).2 }) := by
  show (liftM (step.run d.session).1 : DeskM α).run { d with session := (step.run d.session).2 } = _
  exact Step.run_liftM _ _

/-! ## Messages -/

namespace Session

/-- The messages are heard in turn, up to the first that is refused. -/
def hearAll (hears : LogMessage → SessionM Unit) : List LogMessage → SessionM Unit
  | [] => pure ()
  | m :: ms => do
    hears m
    hearAll hears ms

variable (hears : LogMessage → SessionM Unit)

theorem hearAll_cons (m : LogMessage) (ms : List LogMessage) (s : Session) :
    (hearAll hears (m :: ms)).run s =
      match (hears m).run s with
      | (.ok _, s) => (hearAll hears ms).run s
      | (.error f, s) => (.error f, s) := by
  rw [hearAll, Step.run_bind]
  rcases (hears m).run s with ⟨answer, t⟩
  cases answer <;> rfl

theorem hearAll_append (ms ns : List LogMessage) (s : Session) :
    (hearAll hears (ms ++ ns)).run s =
      match (hearAll hears ms).run s with
      | (.ok _, s) => (hearAll hears ns).run s
      | (.error f, s) => (.error f, s) := by
  induction ms generalizing s with
  | nil => rfl
  | cons m ms ih =>
    rw [List.cons_append, hearAll_cons, hearAll_cons]
    rcases (hears m).run s with ⟨answer, t⟩
    cases answer with
    | error f => rfl
    | ok _ => exact ih t

/-- What nobody hears nobody refuses. -/
theorem hearAll_unheard (ms : List LogMessage) (s : Session) : (hearAll unheard ms).run s = (.ok (), s) := by
  induction ms with
  | nil => rfl
  | cons m ms ih =>
    rw [hearAll_cons]
    exact ih

end Session

/-- Steps on a store that note what they tell. -/
abbrev NotingM := StateT (List LogMessage) (StateM Store)

/-- A message is noted. -/
def note (m : LogMessage) : ExceptT Failure NotingM Unit :=
  modify (· ++ [m])

/-- What a step tells if nobody refuses it. -/
def messages {β : Type} (noted : NotingM β) (s : Store) : List LogMessage :=
  ((noted.run []).run s).1.2

/-! ## Steps that tell -/

/-- The first step, at a desk, does what the last one does on the store, and tells what the middle one notes. If all of
that is heard it answers as the last one; the first message that is refused ends it, and its failure makes the
answer. -/
structure Tells {β : Type} (hears : LogMessage → SessionM Unit) (refusal : Failure → β) (loud : StateM Desk β)
    (noted : NotingM β) (silent : StateM Store β) : Prop where
  notes : ∀ s ms, (noted.run ms).run s = (((silent.run s).1, ms ++ messages noted s), (silent.run s).2)
  heard : ∀ d session, (Session.hearAll hears (messages noted d.store)).run d.session = (.ok (), session) →
    loud.run d = ((silent.run d.store).1, { d with session := session, store := (silent.run d.store).2 })
  refused : ∀ d f session, (Session.hearAll hears (messages noted d.store)).run d.session = (.error f, session) →
    ∃ store, loud.run d = (refusal f, { d with session := session, store := store })

/-- A step that may fail: a refused message makes it fail. -/
abbrev TellsOrFails {α : Type} (hears : LogMessage → SessionM Unit) (loud : DeskM α)
    (noted : ExceptT Failure NotingM α) (silent : StoreM α) : Prop :=
  Tells hears Except.error loud.run noted.run silent.run

namespace Tells

variable {α β γ : Type} {hears : LogMessage → SessionM Unit} {refusal : Failure → β} {refusal' : Failure → γ}

theorem done (b : β) : Tells hears refusal (pure b) (pure b) (pure b) where
  notes s ms := by
    have hnothing : messages (pure b) s = [] := rfl
    rw [hnothing, List.append_nil]
    rfl
  heard d session h := by
    obtain ⟨-, rfl⟩ := Prod.mk.inj h
    rfl
  refused d f session h := by cases h

/-- A step on the store tells nothing. -/
theorem lifted (step : StateM Store β) : Tells hears refusal (liftM step) (liftM step) step where
  notes s ms := by
    have hnothing : messages (liftM step : NotingM β) s = [] := rfl
    rw [hnothing, List.append_nil]
    rfl
  heard d session h := by
    obtain ⟨-, rfl⟩ := Prod.mk.inj h
    rfl
  refused d f session h := by cases h

theorem onStore (step : StoreM α) : TellsOrFails hears (Template.onStore step) (Template.onStore step) step :=
  lifted step.run

theorem tell (m : LogMessage) : TellsOrFails hears (Command.tell hears m) (note m) (Template.unheard m) := by
  have hrun (d : Desk) : (Command.tell hears m).run d =
      (((hears m).run d.session).1, { d with session := ((hears m).run d.session).2 }) := Desk.onSession_run _ d
  refine ⟨fun s ms => rfl, fun d session h => ?_, fun d f session h => ?_⟩
  all_goals
    have hone : (Session.hearAll hears [m]).run d.session = _ := h
    rw [Session.hearAll_cons] at hone
    rcases hheard : (hears m).run d.session with ⟨answer, session'⟩
    rw [hheard] at hone
  · cases answer with
    | error f => cases hone
    | ok _ =>
      obtain ⟨-, rfl⟩ := Prod.mk.inj hone
      exact (hrun d).trans (by rw [hheard]; rfl)
  · cases answer with
    | ok _ => cases hone
    | error f' =>
      obtain ⟨hf, rfl⟩ := Prod.mk.inj hone
      obtain rfl := Except.error.inj hf
      exact ⟨d.store, (hrun d).trans (by rw [hheard])⟩

/-- A step of which everything is heard. -/
theorem run_heard {loud : DeskM α} {noted : ExceptT Failure NotingM α} {silent : StoreM α}
    (h : TellsOrFails hears loud noted silent) {d : Desk} {session : Session}
    (hheard : (Session.hearAll hears (messages noted.run d.store)).run d.session = (.ok (), session)) :
    loud.run d = ((silent.run d.store).1, { d with session := session, store := (silent.run d.store).2 }) :=
  h.heard d session hheard

/-- A step of which something is refused. -/
theorem run_refused {loud : DeskM α} {noted : ExceptT Failure NotingM α} {silent : StoreM α}
    (h : TellsOrFails hears loud noted silent) {d : Desk} {f : Failure}
    (hrefused : ((Session.hearAll hears (messages noted.run d.store)).run d.session).1 = .error f) :
    (loud.run d).1 = .error f := by
  obtain ⟨_, hrun⟩ := h.refused d f _ (Prod.ext hrefused rfl)
  exact congrArg Prod.fst hrun

section

variable {loud : StateM Desk β} {noted : NotingM β} {silent : StateM Store β} {loud' : β → StateM Desk γ}
  {noted' : β → NotingM γ} {silent' : β → StateM Store γ}

/-- What two steps tell one after another. -/
theorem run_next (h : Tells hears refusal loud noted silent)
    (h' : ∀ b, Tells hears refusal' (loud' b) (noted' b) (silent' b)) (s : Store) (ms : List LogMessage) :
    ((noted >>= noted').run ms).run s =
      (((silent' (silent.run s).1).run (silent.run s).2 |>.1,
        ms ++ (messages noted s ++ messages (noted' (silent.run s).1) (silent.run s).2)),
        ((silent' (silent.run s).1).run (silent.run s).2).2) := by
  show ((noted' ((noted.run ms).run s).1.1).run ((noted.run ms).run s).1.2).run ((noted.run ms).run s).2 = _
  rw [h.notes, (h' _).notes, List.append_assoc]

theorem messages_next (h : Tells hears refusal loud noted silent)
    (h' : ∀ b, Tells hears refusal' (loud' b) (noted' b) (silent' b)) (s : Store) :
    messages (noted >>= noted') s =
      messages noted s ++ messages (noted' (silent.run s).1) (silent.run s).2 := by
  rw [messages, run_next h h' s []]
  exact List.nil_append _

/-- A step after another one, which a refused message has not ended. -/
theorem next (h : Tells hears refusal loud noted silent)
    (h' : ∀ b, Tells hears refusal' (loud' b) (noted' b) (silent' b))
    (hends : ∀ f d, (loud' (refusal f)).run d = (refusal' f, d)) :
    Tells hears refusal' (loud >>= loud') (noted >>= noted') (silent >>= silent') where
  notes s ms := by
    rw [run_next h h', messages_next h h']
    rfl
  heard d session hall := by
    rw [messages_next h h', Session.hearAll_append] at hall
    rcases hfirst : (Session.hearAll hears (messages noted d.store)).run d.session with ⟨answer, session'⟩
    rw [hfirst] at hall
    cases answer with
    | error f => cases hall
    | ok _ =>
      rw [Step.run_then, h.heard d session' hfirst]
      exact (h' _).heard _ session hall
  refused d f session hall := by
    rw [messages_next h h', Session.hearAll_append] at hall
    rcases hfirst : (Session.hearAll hears (messages noted d.store)).run d.session with ⟨answer, session'⟩
    rw [hfirst] at hall
    cases answer with
    | error f' =>
      obtain ⟨hf, rfl⟩ := Prod.mk.inj hall
      obtain rfl := Except.error.inj hf
      obtain ⟨store, hrun⟩ := h.refused d f' session' hfirst
      rw [Step.run_then, hrun]
      exact ⟨store, hends f' _⟩
    | ok _ =>
      rw [Step.run_then, h.heard d session' hfirst]
      exact (h' _).refused _ f session hall

/-- A step on the store in front tells nothing. -/
theorem after (step : StateM Store β) (h' : ∀ b, Tells hears refusal' (loud' b) (noted' b) (silent' b)) :
    Tells hears refusal' (liftM step >>= loud') (liftM step >>= noted') (step >>= silent') where
  notes _ ms := (h' _).notes _ ms
  heard d session h := (h' _).heard { d with store := (step.run d.store).2 } session h
  refused d f session h := (h' _).refused { d with store := (step.run d.store).2 } f session h

end

/-- A step after another one, if that one has succeeded. -/
theorem bind {loud : DeskM α} {noted : ExceptT Failure NotingM α} {silent : StoreM α} {loud' : α → DeskM γ}
    {noted' : α → ExceptT Failure NotingM γ} {silent' : α → StoreM γ} (h : TellsOrFails hears loud noted silent)
    (h' : ∀ a, TellsOrFails hears (loud' a) (noted' a) (silent' a)) :
    TellsOrFails hears (loud >>= loud') (noted >>= noted') (silent >>= silent') := by
  show Tells hears Except.error (loud.run >>= ExceptT.bindCont loud') (noted.run >>= ExceptT.bindCont noted')
    (silent.run >>= ExceptT.bindCont silent')
  refine next h (fun answer => ?_) fun f d => rfl
  cases answer with
  | ok a => exact h' a
  | error e => exact done (Except.error e)

theorem answer (a : α) : TellsOrFails hears (pure a) (pure a) (pure a) := by
  show Tells hears Except.error (pure (Except.ok a)) (pure (Except.ok a)) (pure (Except.ok a))
  exact done _

end Tells

/-! ## The operations of a template -/

namespace Template

section

variable (hears : LogMessage → SessionM Unit) (t : Template)

theorem tells_store (content : Option Bytes) (filename contentType metadata : Value) :
    TellsOrFails hears (t.storeTelling (Command.tell hears) content filename contentType metadata)
      (t.storeTelling note content filename contentType metadata)
      (t.storeTelling unheard content filename contentType metadata) :=
  (Tells.onStore _).bind fun _ => (Tells.tell _).bind fun _ => Tells.answer _

theorem tells_find (q : Option Query) :
    TellsOrFails hears (t.findTelling (Command.tell hears) q) (t.findTelling note q) (t.find q) := by
  cases q with
  | none => exact Tells.onStore _
  | some q =>
    exact (Tells.onStore _).bind fun _ => (Tells.onStore _).bind fun _ => (Tells.tell _).bind fun _ => Tells.onStore _

theorem tells_findOne (q : Option Query) :
    TellsOrFails hears (t.findOneTelling (Command.tell hears) q) (t.findOneTelling note q) (t.findOne q) :=
  (t.tells_find hears q).bind fun _ => Tells.answer _

theorem tells_delete (q : Option Query) :
    TellsOrFails hears (t.deleteTelling (Command.tell hears) q) (t.deleteTelling note q) (t.delete q) :=
  (Tells.onStore _).bind fun _ => (t.tells_find hears q).bind fun _ => (Tells.onStore _).bind fun _ =>
    (Tells.tell _).bind fun _ => Tells.answer _

theorem tells_resource (location : String) :
    TellsOrFails hears (t.resourceTelling (Command.tell hears) location) (t.resourceTelling note location)
      (t.resource location) := by
  refine (t.tells_findOne hears _).bind fun found => ?_
  obtain ⟨_, file⟩ := found
  cases file with
  | none => exact (Tells.tell _).bind fun _ => Tells.answer _
  | some file => exact (Tells.onStore _).bind fun _ => (Tells.onStore _).bind fun _ => Tells.answer _

theorem tells_resources (pattern : Option String) :
    Tells hears (fun f => { resources := [], failure := some f })
      (t.resourcesTelling (n := StateM Desk) (Command.tell hears) pattern)
      (t.resourcesTelling (n := NotingM) note pattern) (t.resources pattern) := by
  cases pattern with
  | none => exact Tells.done _
  | some path =>
    unfold resources resourcesTelling
    cases hblank : Text.isBlankText path with
    | true =>
      simp only [hblank, ↓reduceIte]
      exact Tells.done _
    | false =>
      cases hwild : (Glob.withSeparator path none).hasWildcard with
      | false =>
        simp only [hblank, hwild, Bool.not_false, Bool.false_eq_true, ↓reduceIte]
        refine (t.tells_resource hears path).next (fun answer => ?_) fun _ _ => rfl
        cases answer <;> exact Tells.done _
      | true =>
        simp only [hblank, hwild, Bool.not_true, Bool.false_eq_true, ↓reduceIte]
        refine (Tells.tell _).next (fun answer => ?_) fun _ _ => rfl
        cases answer with
        | error e => exact Tells.done _
        | ok _ =>
          refine Tells.after t.request.run fun _ => ?_
          refine (t.tells_find hears _).next (fun answer => ?_) fun _ _ => rfl
          cases answer with
          | error e => exact Tells.done _
          | ok cursor => exact Tells.lifted _

theorem tells_storeFile (files : FileTree) (file : String) (name contentType : Option String)
    (entries : List String) :
    TellsOrFails hears (t.storeFileTelling (Command.tell hears) files file name contentType entries)
      (t.storeFileTelling note files file name contentType entries)
      (t.storeFileTelling unheard files file name contentType entries) :=
  (Tells.onStore _).bind fun _ => (Tells.onStore _).bind fun _ => (t.tells_store hears _ _ _ _).bind fun _ =>
    Tells.answer _

theorem tells_allByName :
    TellsOrFails hears (t.allByNameTelling (Command.tell hears)) (t.allByNameTelling note)
      (t.allByNameTelling unheard) :=
  (Tells.onStore _).bind fun _ => (t.tells_find hears _).bind fun _ => Tells.answer _

theorem tells_removal (pattern : String) :
    TellsOrFails hears (t.removalTelling (Command.tell hears) pattern) (t.removalTelling note pattern)
      (t.removal pattern) :=
  (Tells.onStore _).bind fun _ => t.tells_delete hears _

end

end Template

/-! ## Commands -/

namespace Command

/-- What a command tells if nobody refuses it. -/
def messages (t : Template) (files : FileTree) (s : Store) : Command → List LogMessage
  | .put file name contentType entries =>
    FileDepot.messages (t.storeFileTelling note files file name contentType entries).run s
  | .get name _ => FileDepot.messages (t.resourceTelling note name).run s
  | .list pattern =>
    match pattern.filter (· ≠ "") with
    | none => FileDepot.messages (t.allByNameTelling note).run s
    | some pattern => FileDepot.messages (t.resourcesTelling note (some pattern)) s
  | .remove pattern => FileDepot.messages (t.removalTelling note pattern).run s

/-- What a command tells at a desk is heard there, up to the first message that is refused. -/
def hearing (hears : LogMessage → SessionM Unit) (t : Template) (d : Desk) (c : Command) :
    Except Failure Unit × Session :=
  (Session.hearAll hears (c.messages t d.session.files d.store)).run d.session

/-- Nothing that a command tells at a desk is refused. -/
def Heard (hears : LogMessage → SessionM Unit) (t : Template) (d : Desk) (c : Command) : Prop :=
  (c.hearing hears t d).1 = .ok ()

theorem heard_iff {hears : LogMessage → SessionM Unit} {t : Template} {d : Desk} {c : Command} :
    c.Heard hears t d ↔ c.hearing hears t d = (.ok (), (c.hearing hears t d).2) :=
  ⟨fun h => Prod.ext h rfl, fun h => congrArg Prod.fst h⟩

/-- Where nobody listens nothing is refused, and the session stays as it is. -/
theorem hearing_unheard (t : Template) (d : Desk) (c : Command) :
    c.hearing Session.unheard t d = (.ok (), d.session) :=
  Session.hearAll_unheard _ _

theorem heard_unheard (t : Template) (d : Desk) (c : Command) : c.Heard Session.unheard t d :=
  congrArg Prod.fst (c.hearing_unheard t d)

end Command

end FileDepot
