import FileDepot.Logging.Board
import FileDepot.Value.Access

/-!
# Delivery of messages

A message is handed to the handlers of its logger and of the loggers above it. What the handlers show is of no
account here; but a handler that has no use for messages, or cannot be compared with them, fails.

Contents:

* `LogFilter.passes` — a filter lets a message pass;
* `LogBoard.handle` — a handler takes a message;
* `LogBoard.tell`, `LogBoard.deliver` — a message of a logger is delivered.
-/

namespace FileDepot

/-- Steps that hand over a message. -/
abbrev DeliveryM := ExceptT Failure (StateM LogBoard)

/-- The first value is no less than the second. -/
def Value.reaches (a b : Value) : Except Failure Bool := do
  let less ← (b.precedes a).mapError Value.Unordered.failure
  pure (less || a.same b)

/-- The value is an empty collection. -/
def Value.isEmptyCollection (v : Value) : Bool :=
  v.elements?.any List.isEmpty

/-- A filter lets a message of a logger pass. -/
def LogFilter.passes (logger : String) : LogFilter → Except Failure Bool
  | .broken => .error .wrongKind
  | .source name =>
    if name.isEmptyCollection then .ok true
    else
      match name.text? with
      | some s =>
        .ok (s == logger || (Text.dropPrefix? (s ++ ".").toList logger.toList).isSome)
      | none => .error .wrongKind

/-- All filters let a message of a logger pass; the first that does not decides. -/
def LogFilter.allPass (logger : String) : List LogFilter → Except Failure Bool
  | [] => .ok true
  | f :: fs => do
    if ← f.passes logger then allPass logger fs else .ok false

namespace LogBoard

/-- A handler uses its messages in another way. -/
def setUse (n : Nat) (use : LogUse) : DeliveryM Unit := do
  let b ← get
  set { b with handlers := b.handlers.modify n fun h => { h with use := use } }

/-- A handler takes a message of a level from a logger; `depth` bounds how often it is passed on. -/
def handle (logger : String) (level : Value) : Nat → Nat → DeliveryM Unit
  | 0, _ => pure ()
  | depth + 1, n => do
    match (← get).handlers[n]? with
    | none => pure ()
    | some h =>
      match h.use with
      | .drop => pure ()
      | use =>
        if ← LogFilter.allPass logger h.filters then
          match use with
          | .unknown => throw .unfinished
          | .drop | .write => pure ()
          | .keep capacity kept =>
            setUse n (.keep capacity (kept + 1))
            if ← (Value.int (kept + 1)).reaches capacity then setUse n (.keep capacity 0)
          | .pass capacity limit target kept =>
            setUse n (.pass capacity limit target (kept + 1))
            let full ← (Value.int (kept + 1)).reaches capacity
            let due ← if full then pure true else level.reaches limit
            if due then
              match target with
              | .nowhere => pure ()
              | .stranger => throw .lacksOperation
              | .handler m =>
                (List.range (kept + 1)).forM fun _ => handle logger level depth m
                setUse n (.pass capacity limit target 0)

/-- Hands a message to the handlers of loggers in turn, up to the first logger that keeps its messages to
itself. -/
def handOver (logger : String) (level : Value) : List Logger → DeliveryM Unit
  | [] => pure ()
  | l :: ls => do
    let b ← get
    for n in l.handlers do
      if ← level.reaches ((b.handlers[n]?.map LogHandler.level).getD LogLevel.inherited) then
        handle logger level (b.handlers.length + 1) n
    if l.propagate.truthy then handOver logger level ls

/-- Delivers a message of a level from a logger, unless the logger is disabled or shows only messages of
higher levels, or nothing is shown at all. -/
def tell (logger : String) (level : Value) : DeliveryM Unit := do
  let b ← get
  let l := b.logger logger
  if b.muted || l.disabled.truthy then pure ()
  else if ← level.reaches (b.effectiveLevel logger) then
    if ← LogFilter.allPass logger l.filters then handOver logger level (b.chain logger)

/-- Delivers a message. For a message of the root logger itself a handler is put up first, if there is none. -/
def deliver (m : LogMessage) : DeliveryM Unit := do
  let b ← get
  set (if m.logger == "" then b.addBare else b.ensure m.logger)
  tell m.logger m.level

end LogBoard

end FileDepot
