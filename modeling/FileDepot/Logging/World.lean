import FileDepot.Logging.Delivery
import FileDepot.Logging.Draft

/-!
# The program around the logging

What happens beyond the logging itself is up to the program around it: who hears a message, and what a call of one of
its functions or classes does.

Contents:

* `CallEnd` — how such a call ends;
* `Outside.called` — the calls of what is known of the program;
* `LogWorld` — who hears messages, and what calls do;
* `LogWorld.standard` — the world in which messages are delivered.
-/

namespace FileDepot

/-- How a call of a function or a class ends. -/
inductive CallEnd
  | gives (v : Value)
  /-- It makes something that is of no account any more. -/
  | makes
  /-- It fails, and who has called it answers for that. -/
  | fails
  /-- It fails in a way for which nobody answers. -/
  | escapes (failure : Failure)
  deriving Repr, Inhabited

namespace Outside

/-- The functions that do nothing of account. -/
def idleFunctions : List String :=
  ["logging.shutdown", "logging.config.stopListening", "builtins.print"]

/-- The functions that make something. -/
def makingFunctions : List String :=
  ["logging.getLogger", "logging.getLoggerClass", "logging.getLogRecordFactory", "logging.getLevelNamesMapping",
    "sys.getrecursionlimit", "os.getcwd", "os.getpid", "os.listdir"]

/-- What a function does that is called without arguments. -/
def calledFunction (name : String) (b : LogBoard) : CallEnd × LogBoard :=
  match name with
  | "" => (.gives .null, b)
  | "logging.basicConfig" => (.gives .null, b.addBare)
  | "logging.disable" => (.gives .null, { b with muted := true })
  | "sys.exit" => (.escapes .ended, b)
  | name =>
    if idleFunctions.contains name then (.gives .null, b)
    else if makingFunctions.contains name then (.makes, b)
    else (.fails, b)

/-- What a call of a thing does. With arguments it fails. -/
def called (o : Outside) (given : TableEntries) (b : LogBoard) : CallEnd × LogBoard :=
  match o with
  | .otherClass _ true => (if given.isEmpty then .makes else .fails, b)
  | .function _ name => if given.isEmpty then calledFunction name b else (.fails, b)
  | _ => (.fails, b)

end Outside

/-- Who hears messages, and what calls do; nobody hears any at first. Whoever hears a message may refuse it. -/
structure LogWorld where
  hears : LogMessage → LogBoard → Except Failure Unit × LogBoard := fun _ b => (.ok (), b)
  calls : Outside → TableEntries → LogBoard → CallEnd × LogBoard := Outside.called
  deriving Inhabited

/-- The world in which messages are delivered to the handlers of loggers. -/
def LogWorld.standard : LogWorld where
  hears m b := (LogBoard.deliver m).run b

end FileDepot
