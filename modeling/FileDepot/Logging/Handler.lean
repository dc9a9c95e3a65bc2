import FileDepot.Logging.Board
import FileDepot.Logging.LogFile
import FileDepot.Number.Word
import FileDepot.Text.Case

/-!
# Kinds of handlers

A handler is made from its kind and named arguments. Handlers that write to a file open it when they are
made, unless they are told to wait.

Contents:

* `HandlerKind`, `HandlerKind.all` — the kinds;
* `HandlerKind.parameters`, `HandlerKind.required` — their arguments;
* `HandlerKind.acceptable` — the values that the arguments may have;
* `HandlerKind.use` — what a handler does with messages;
* `LogBoard.make` — a handler from its kind and arguments.
-/

namespace FileDepot

/-- The kinds of handlers. -/
inductive HandlerKind
  | bare
  | null
  | errorStream
  | stream
  | file
  | watched
  | changing
  | rotating
  | timed
  | buffering
  | memory
  | queue
  | socket
  | datagram
  | systemLog
  | eventLog
  | mail
  | web
  deriving Repr, DecidableEq, Inhabited

namespace HandlerKind

/-- All kinds of the main part of the library of handlers. -/
def main : List HandlerKind :=
  [.bare, .null, .errorStream, .stream, .file]

/-- All kinds of its other part. -/
def further : List HandlerKind :=
  [.watched, .changing, .rotating, .timed, .buffering, .memory, .queue, .socket, .datagram, .systemLog,
    .eventLog, .mail, .web]

/-- The name of a kind. -/
def name : HandlerKind → String
  | .bare => "Handler"
  | .null => "NullHandler"
  | .errorStream => "_StderrHandler"
  | .stream => "StreamHandler"
  | .file => "FileHandler"
  | .watched => "WatchedFileHandler"
  | .changing => "BaseRotatingHandler"
  | .rotating => "RotatingFileHandler"
  | .timed => "TimedRotatingFileHandler"
  | .buffering => "BufferingHandler"
  | .memory => "MemoryHandler"
  | .queue => "QueueHandler"
  | .socket => "SocketHandler"
  | .datagram => "DatagramHandler"
  | .systemLog => "SysLogHandler"
  | .eventLog => "NTEventLogHandler"
  | .mail => "SMTPHandler"
  | .web => "HTTPHandler"

/-- The arguments that must be given. -/
def required : HandlerKind → List String
  | .bare | .null | .errorStream | .stream | .systemLog => []
  | .file | .watched | .rotating | .timed => ["filename"]
  | .changing => ["filename", "mode"]
  | .buffering | .memory => ["capacity"]
  | .queue => ["queue"]
  | .socket | .datagram => ["host", "port"]
  | .eventLog => ["appname"]
  | .mail => ["mailhost", "fromaddr", "toaddrs", "subject"]
  | .web => ["host", "url"]

/-- The arguments that a kind takes. -/
def parameters : HandlerKind → List String
  | .bare | .null | .errorStream => ["level"]
  | .stream => ["stream"]
  | .file | .watched | .changing => ["filename", "mode", "encoding", "delay", "errors"]
  | .rotating => ["filename", "mode", "maxBytes", "backupCount", "encoding", "delay", "errors"]
  | .timed =>
    ["filename", "when", "interval", "backupCount", "encoding", "delay", "utc", "atTime", "errors"]
  | .buffering => ["capacity"]
  | .memory => ["capacity", "flushLevel", "target", "flushOnClose"]
  | .queue => ["queue"]
  | .socket | .datagram => ["host", "port"]
  | .systemLog => ["address", "facility", "socktype"]
  | .eventLog => ["appname", "dllname", "logtype"]
  | .mail =>
    ["mailhost", "fromaddr", "toaddrs", "subject", "credentials", "secure", "timeout"]
  | .web => ["host", "url", "method", "secure", "credentials", "context"]

/-- The kind writes to a file. -/
def writesFile : HandlerKind → Bool
  | .file | .watched | .changing | .rotating | .timed => true
  | _ => false

/-! ## Arguments -/

/-- An argument, or what stands in for it. -/
def argument (given : Entries) (name : String) (absent : Value) : Value :=
  (given.get? name).getD absent

/-- The value is no list or tuple, or one of two items. -/
def isPairIfListed : Value → Bool
  | .list xs => xs.length = 2
  | v => v.tupleItems?.all fun xs => xs.length = 2

/-- The ways to send to a web address. -/
def webMethods : List String := ["GET", "POST"]

/-- The arguments of a handler that sends to a web address are acceptable. -/
def webAcceptable (given : Entries) : Bool :=
  ((argument given "method" (.text "GET")).text?.any fun m => webMethods.contains (Text.capitalized m)) &&
    ((argument given "secure" (.bool false)).truthy || (argument given "context" .null).isNull)

/-! ### Addresses of system logs -/

/-- The text that a text or bytes spell. -/
def spelled? : Value → Option String
  | .bytes bs => Text.stringOfBytes? bs
  | .binary bs _ => Text.stringOfBytes? bs
  | v => v.text?

/-- The name of the machine itself, and its address in long form. -/
def ownNames : List String := ["localhost", "::1"]

/-- The text is a machine's address of numbers, or names the machine itself. -/
def isOwnHost (s : String) : Bool :=
  let parts := Text.splitOn '.' s.toList
  ownNames.contains s ||
    (parts.length ≤ 4 && parts.all fun p =>
      !p.isEmpty && p.all Char.isDigit && ((String.ofList p).toNat?.any (· < 256)))

/-- The value is the number of a port, or leaves it open. -/
def isPort : Value → Bool
  | .null => true
  | .int n => 0 ≤ n && Word.holds n
  | v =>
    match spelled? v with
    | some s => (s.toList.dropWhile Text.isNumberBlank).all Char.isDigit
    | none => false

/-- The socket that sends single messages, and the one that is left open. -/
def messageSockets : List Int := [0, 2]

/-- The arguments of a handler for the system's log are acceptable. An address in one text is not looked
up. -/
def systemLogAcceptable (given : Entries) : Bool :=
  let kind := argument given "socktype" .null
  let address := argument given "address" (.tuple [.text "localhost", .int 514])
  if address.text?.isSome then kind.isNull || kind.whole?.isSome
  else
    match address.elements? with
    | some [host, port] =>
      (host.isNull || (spelled? host).any isOwnHost) && isPort port &&
        (kind.isNull || kind.whole?.any messageSockets.contains)
    | _ => false

/-! ### Changes of files -/

/-- How often a handler changes its file: the seconds from one change to the next, and whether the change
falls on a moment of the day. -/
structure Period where
  seconds : Nat
  daily : Bool

/-- The signs of the days of a week. -/
def weekDays : List String := ["W0", "W1", "W2", "W3", "W4", "W5", "W6"]

/-- The period that a sign names. -/
def Period.ofSign? (sign : String) : Option Period :=
  if weekDays.contains sign then some ⟨7 * 24 * 60 * 60, true⟩
  else
    match sign with
    | "S" => some ⟨1, false⟩
    | "M" => some ⟨60, false⟩
    | "H" => some ⟨60 * 60, false⟩
    | "D" => some ⟨24 * 60 * 60, false⟩
    | "MIDNIGHT" => some ⟨24 * 60 * 60, true⟩
    | _ => none

/-- The value can be multiplied with a number and added to one. -/
def isQuantity (v : Value) : Bool :=
  (v.number?.isSome && !v.isRefusing) || v.typeName == "complex"

/-- The seconds from the start of the count of time that a calendar reaches. -/
def calendarLimit : Nat := 67767976233529199

/-- So many times a number of seconds stay within the calendar. -/
def isReachable (seconds : Nat) (times : Value) : Bool :=
  let whole : Option Int := match times with
    | .float x => x.truncated?
    | v => v.whole?
  whole.any fun n => Int.natAbs (n * seconds) ≤ calendarLimit

/-- The value is a number that a moment of the day may have as a part. -/
def isMomentPart : Value → Bool
  | .float x => x.truncated?.isSome
  | v => v.whole?.isSome

/-- The fields of a value with names. -/
def fieldsOf : Value → List (String × Value)
  | .namedTuple fs => fs
  | .model fs => fs.map fun (name, _, v) => (name, v)
  | .record fs => fs
  | .object fs => fs
  | _ => []

/-- The value gives a moment of the day. -/
def isMoment : Value → Bool
  | .null => true
  | .dateTime _ => true
  | .foreign (.sealed name) => name == "time"
  | v => ["hour", "minute", "second"].all fun part => ((fieldsOf v).lookup part).any isMomentPart

/-- The arguments of a handler that changes its file from time to time are acceptable. -/
def timedAcceptable (given : Entries) : Bool :=
  let interval := argument given "interval" (.int 1)
  match (argument given "when" (.text "h")).text?.bind fun s => Period.ofSign? (Text.capitalized s) with
  | none => false
  | some p =>
    isQuantity interval &&
      (!p.daily || (isMoment (argument given "atTime" .null) &&
        ((argument given "utc" (.bool false)).truthy || isReachable p.seconds interval)))

/-! ### All kinds -/

/-- The arguments of a kind have acceptable values, apart from those that say how a file is opened. -/
def acceptable (k : HandlerKind) (given : Entries) : Bool :=
  match k with
  | .timed => timedAcceptable given
  | .systemLog => systemLogAcceptable given
  | .mail =>
    isPairIfListed (argument given "mailhost" .null) &&
      isPairIfListed (argument given "credentials" .null)
  | .web => webAcceptable given
  | _ => true

/-- What a handler of a kind does with a message. -/
def use (k : HandlerKind) (given : Entries) (target : LogTarget) : LogUse :=
  match k with
  | .bare => .unknown
  | .null => .drop
  | .buffering => .keep (argument given "capacity" .null) 0
  | .memory =>
    .pass (argument given "capacity" .null) (argument given "flushLevel" LogLevel.error) target 0
  | _ => .write

/-- The mode in which a kind opens its file, if it has one: a file of limited size is always added to. -/
def mode? (k : HandlerKind) (given : Entries) : Option Value :=
  let append : Value := .text "a"
  match k with
  | .timed => some append
  | .rotating =>
    let size := argument given "maxBytes" (.int 0)
    match Value.precedes (.int 0) size with
    | .ok limited => some (if limited then append else argument given "mode" append)
    | .error _ => none
  | _ => some (argument given "mode" append)

end HandlerKind

namespace LogBoard

open HandlerKind (argument)

/-- The board after the log file of a handler has been opened, and whether it could be. A handler that waits
looks at little more than the kinds of its arguments. -/
def openLog (b : LogBoard) (k : HandlerKind) (given : Entries) : LogBoard × Bool :=
  match k.mode? given, (argument given "filename" .null).filePath? with
  | some mode, some path =>
    if (LogFile.mentionsBytes? mode).isNone then (b, false)
    else if (argument given "delay" (.bool false)).truthy then (b, true)
    else
      let (files, usable) := LogFile.opened b.files (b.files.straightPath path) mode
        (argument given "encoding" .null) (argument given "errors" .null)
      ({ b with files := files }, usable)
  | _, _ => (b, false)

/-- The board with a handler of a kind, and its number if it could be made. Arguments must be known to the
kind, complete and acceptable. -/
def make (b : LogBoard) (k : HandlerKind) (given : Entries) (target : LogTarget) :
    LogBoard × Option Nat :=
  match given.mapM fun e => e.1.text? with
  | none => (b, none)
  | some names =>
    if !(names.all k.parameters.contains && k.required.all names.contains) then (b, none)
    else
      let (b, usable) := if k.writesFile then b.openLog k given else (b, true)
      if usable && k.acceptable given then
        let (b, n) := b.addHandler { kind := k.name, use := k.use given target }
        (b, some n)
      else (b, none)

end LogBoard

end FileDepot
