import FileDepot.Command.Desk

/-!
# Outcomes

How a command line ends.

Contents:

* `Outcome` — the ways in which a line can end, with what each of them prints;
* `CommandLine.runTelling` — a line from its first word to its outcome, with what is told on the way;
* `CommandLine.run`, `CommandLine.runAloud` — the same where nobody listens, and where the logging does.
-/

namespace FileDepot

/-- How a line ends. -/
inductive Outcome
  /-- The command has been carried out. -/
  | done (printed : Bytes)
  /-- The command has failed and says why. -/
  | reported (failure : Failure)
  /-- A failure that nothing has caught. -/
  | escaped (failure : Failure)
  /-- The line asks for help. -/
  | helped
  /-- The line is not well formed. -/
  | misused (reason : Misuse)
  deriving Repr, DecidableEq, Inhabited

namespace Outcome

/-- The outcome of a line that is not carried out. -/
def ofUsage : Usage → Outcome
  | .help => .helped
  | .misuse reason => .misused reason
  | .badPath failure => .escaped failure

/-- The outcome of a command. -/
def ofAnswer (c : Command) : Except Failure Bytes → Outcome
  | .ok printed => .done printed
  | .error f => if c.reports f then .reported f else .escaped f

/-- The exit code. A program that has been asked to end ends well. -/
def exitCode : Outcome → Nat
  | .done _ => 0
  | .reported _ => 1
  | .escaped .ended => 0
  | .escaped _ => 1
  | .helped => 0
  | .misused _ => 2

/-- What the command has printed. -/
def printed : Outcome → Bytes
  | .done printed => printed
  | _ => []

/-- What the command has reported. -/
def report : Outcome → String
  | .reported f => s!"Error: {f.text?.getD default}\n"
  | _ => ""

end Outcome

namespace CommandLine

/-- Carries a line out: reads it up to the name of its command, opens the depot, reads the rest, and
carries out the command. -/
def runTelling (hears : LogMessage → SessionM Unit) (line : List String) : StateM Desk Outcome := do
  match CommandLine.read (← get).session.files line with
  | .error u => pure (.ofUsage u)
  | .ok l =>
    match ← (Desk.openDepotTelling hears l.config l.bucket).run with
    | .error f => pure (.escaped f)
    | .ok depot =>
      match l.command.read (← get).session.files l.rest with
      | .error u => pure (.ofUsage u)
      | .ok command => pure (.ofAnswer command (← (command.performTelling hears depot.template).run))

/-- Carries a line out where nobody listens to what is told on the way. -/
def run (line : List String) : StateM Desk Outcome :=
  runTelling Session.unheard line

/-- Carries a line out where what is told on the way goes to the logging. -/
def runAloud (line : List String) : StateM Desk Outcome :=
  runTelling Session.hear line

end CommandLine

end FileDepot
