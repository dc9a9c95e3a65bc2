import FileDepot.Value.Compare

/-!
# Levels of logging

Contents:

* `LogLevel.names` — the levels that have names;
* `LogLevel.ofValue?` — the level that a value gives;
* `LogMessage` — a message of a level from a logger.
-/

namespace FileDepot

namespace LogLevel

/-- The level of a logger that takes the level of the logger above it. -/
def inherited : Value := .int 0

/-- The level of messages that help to find faults. -/
def debug : Value := .int 10

/-- The level of informative messages. -/
def info : Value := .int 20

/-- The level of warnings. -/
def warning : Value := .int 30

/-- The level of errors. -/
def error : Value := .int 40

/-- The levels that have names. -/
def names : List (String × Int) :=
  [("CRITICAL", 50), ("FATAL", 50), ("ERROR", 40), ("WARN", 30), ("WARNING", 30), ("INFO", 20),
    ("DEBUG", 10), ("NOTSET", 0)]

/-- The level that a value gives: a number gives itself, and a text the level of its name. -/
def ofValue? (v : Value) : Option Value :=
  match v.whole? with
  | some _ => some v
  | none => v.text?.bind fun name => (names.lookup name).map .int

end LogLevel

/-- A message: the name of the logger that it comes from, its level and its text. -/
structure LogMessage where
  logger : String
  level : Value
  text : String
  deriving Repr, Inhabited

end FileDepot
