import FileDepot.Files.Tree
import FileDepot.Logging.Level

/-!
# Loggers and handlers

Loggers have names whose parts are joined by dots: a logger takes its level from the nearest logger above
it where it has none of its own, and the root logger is above all others. A handler may belong to several
loggers, so the board keeps the handlers by number.

Contents:

* `LogFilter`, `LogUse`, `LogHandler`, `Logger`, `LogBoard` — the data;
* `LogBoard.ensure`, `LogBoard.logger` — a logger by its name;
* `LogBoard.known` — the names that are taken;
* `LogBoard.chain` — a logger and those above it;
* `LogBoard.effectiveLevel` — the level that counts for a logger;
* `Logger.attach` — one more handler for a logger;
* `LogBoard.addEarly`, `LogBoard.addBare`, `LogBoard.addBasic` — the handlers of loggers that have none;
* `LogBoard.withStanding`, `LogBoard.withSilent` — loggers that are there from the start.
-/

namespace FileDepot

/-- A filter of messages. -/
inductive LogFilter
  /-- It lets pass what comes from the logger of a name, or from one below it. -/
  | source (name : Value)
  /-- Something that filters nothing. -/
  | broken
  deriving Repr, Inhabited

/-- To what a handler passes messages on. -/
inductive LogTarget
  | nowhere
  | handler (n : Nat)
  /-- Something that is no handler. -/
  | stranger
  deriving Repr, DecidableEq, Inhabited

/-- What a handler does with a message. -/
inductive LogUse
  /-- It has no use for any. -/
  | unknown
  | drop
  | write
  /-- It keeps them until it has as many as it holds. -/
  | keep (capacity : Value) (kept : Nat)
  /-- It keeps them until it has as many as it holds, or one is of a level, and passes them on. -/
  | pass (capacity level : Value) (target : LogTarget) (kept : Nat)
  deriving Repr, Inhabited

/-- A handler: its kind, its level and its format, if it has one, its filters and what it does with
messages. -/
structure LogHandler where
  kind : String
  level : Value := LogLevel.inherited
  format : Option Value := none
  filters : List LogFilter := []
  use : LogUse := .write
  deriving Repr, Inhabited

/-- A logger with the numbers of its handlers. -/
structure Logger where
  level : Value := LogLevel.inherited
  handlers : List Nat := []
  filters : List LogFilter := []
  disabled : Value := .bool false
  propagate : Value := .bool true
  /-- Only the root logger counts as above the logger. -/
  standsAlone : Bool := false
  deriving Repr, Inhabited

/-- The logger with one more handler. -/
def Logger.attach (l : Logger) (n : Nat) : Logger :=
  if l.handlers.contains n then l else { l with handlers := l.handlers ++ [n] }

/-- All loggers and handlers, with the files that handlers write to. -/
structure LogBoard where
  files : FileTree := {}
  /-- All handlers; the number of a handler is its place. -/
  handlers : List LogHandler := []
  /-- The handlers that can be found by a name. -/
  named : List (Value × Nat) := []
  root : Logger := { level := LogLevel.warning }
  /-- The loggers below the root, in the order in which they were made. -/
  loggers : List (String × Logger) := []
  /-- No message of any named level is shown. -/
  muted : Bool := false
  deriving Repr, Inhabited

namespace LogBoard

/-- The name stands for the root logger. -/
def isRoot (name : String) : Bool :=
  name == "" || name == "root"

/-- The board with a logger of a name; one that is there stays. -/
def ensure (b : LogBoard) (name : String) : LogBoard :=
  if isRoot name || b.loggers.any (fun l => l.1 == name) then b
  else { b with loggers := b.loggers ++ [(name, {})] }

/-- The logger of a name. -/
def logger (b : LogBoard) (name : String) : Logger :=
  if isRoot name then b.root else (b.loggers.lookup name).getD {}

/-- The board with the logger of a name changed, made first if there is none. -/
def modify (b : LogBoard) (name : String) (f : Logger → Logger) : LogBoard :=
  if isRoot name then { b with root := f b.root }
  else
    let b := b.ensure name
    { b with loggers := b.loggers.map fun l => if l.1 == name then (l.1, f l.2) else l }

/-- The names above a name, the nearest first: what stands in front of its dots. -/
def above (name : String) : List String :=
  let parts := Text.splitOn '.' name.toList
  let starts := (List.range parts.length).map fun n => Text.joinWith '.' (parts.take n)
  (starts.filter (!·.isEmpty)).reverse.map String.ofList

/-- The names that are taken: those of loggers and those above them. -/
def known (b : LogBoard) : List String :=
  (b.loggers.flatMap fun l => l.1 :: above l.1).eraseDups

/-- The loggers of the given names, each standing above the one before it, up to one that has only the root
logger above it. -/
def loggersFrom (b : LogBoard) : List String → List Logger
  | [] => []
  | name :: names =>
    match b.loggers.lookup name with
    | none => loggersFrom b names
    | some l => if l.standsAlone then [l] else l :: loggersFrom b names

/-- The logger of a name and those above it, the nearest first. -/
def chain (b : LogBoard) (name : String) : List Logger :=
  (if isRoot name then [] else b.loggersFrom (name :: above name)) ++ [b.root]

/-- The level that counts for a logger: its own, or else that of the nearest logger above it that has
one. -/
def effectiveLevel (b : LogBoard) (name : String) : Value :=
  (((b.chain name).map Logger.level).find? Value.truthy).getD LogLevel.inherited

/-- The handlers of a logger. -/
def handlersOf (b : LogBoard) (l : Logger) : List LogHandler :=
  l.handlers.filterMap fun n => b.handlers[n]?

/-- The board with one more handler, and its number. -/
def addHandler (b : LogBoard) (h : LogHandler) : LogBoard × Nat :=
  ({ b with handlers := b.handlers ++ [h] }, b.handlers.length)

/-- The format of the handler of a root logger that has none. -/
def basicFormat : String := "%(levelname)s:%(name)s:%(message)s"

/-- The format of a logger that is asked for before logging is set up. -/
def earlyFormat : String := "%(asctime)s - %(name)s - %(levelname)s - %(message)s"

/-- The board with a handler for a logger, which then shows informative messages. -/
def addEarly (b : LogBoard) (name : String) : LogBoard :=
  let (b, n) := b.addHandler { kind := "StreamHandler", format := some (.text earlyFormat) }
  b.modify name fun l => { l.attach n with level := LogLevel.info }

/-- The board with a handler for the root logger. A root logger that has handlers stays as it is. -/
def addBare (b : LogBoard) : LogBoard :=
  if b.root.handlers.isEmpty then
    let (b, n) := b.addHandler { kind := "StreamHandler", format := some (.text basicFormat) }
    { b with root := { b.root with handlers := [n] } }
  else b

/-- The board with a handler for the root logger, which then shows informative messages. A root logger
that has handlers stays as it is. -/
def addBasic (b : LogBoard) : LogBoard :=
  if b.root.handlers.isEmpty then { b.addBare with root := { b.addBare.root with level := LogLevel.info } }
  else b

/-- The board with a logger that is there before logging is set up, shows informative messages and has only
the root logger above it. -/
def withStanding (b : LogBoard) (name : String) : LogBoard :=
  (b.addEarly name).modify name fun l => { l with standsAlone := true }

/-- The board with a logger without a handler that is there before logging is set up and has only the root
logger above it. -/
def withSilent (b : LogBoard) (name : String) : LogBoard :=
  b.modify name fun l => { l with standsAlone := true }

end LogBoard

end FileDepot
