import FileDepot.Logging.Format
import FileDepot.Logging.World
import FileDepot.Value.Sorting

/-!
# Logging from a configuration

A configuration is a document with formatters, filters, handlers, loggers and a root logger. It is taken
over part by part; where a part cannot be used, the parts before it stay taken over.

Contents:

* `LogFault` — what keeps a configuration from being taken over;
* `LogWork` — the board and the configuration in use;
* `LogSetup.formatter`, `LogSetup.filter`, `LogSetup.handler`, `LogSetup.logger` — single parts;
* `LogSetup.apply` — a whole configuration;
* `LogSetup.settle` — the loggers that a configuration does not name.
-/

namespace FileDepot

/-- What keeps a configuration from being taken over. -/
inductive LogFault
  | version (shown : String)
  /-- A tuple of no items cannot be reported. -/
  | tooShort
  /-- A tuple of several items cannot be reported. -/
  | tooLong
  | unknownHandler (name : String)
  | formatter (name : String)
  | filter (name : String)
  | handler (name : String)
  | logger (name : String)
  | root
  | notIterable (typeName : String)
  | unordered (left right : String)
  /-- A decimal that refuses to be compared. -/
  | incomparable
  /-- A reference that leads nowhere. -/
  | reference (fault : DraftFault)
  /-- A failure in a call for which nobody answers. -/
  | escaped (failure : Failure)
  deriving Repr, DecidableEq, Inhabited

namespace LogFault

/-- How a fault is reported. -/
def message : LogFault → String
  | .version shown => s!"Unsupported version: {shown}"
  | .tooShort => "not enough arguments for format string"
  | .tooLong => "not all arguments converted during string formatting"
  | .unknownHandler name => s!"No handler found with name {name}"
  | .formatter name => s!"Unable to configure formatter {name}"
  | .filter name => s!"Unable to configure filter {name}"
  | .handler name => s!"Unable to configure handler {name}"
  | .logger name => s!"Unable to configure logger {name}"
  | .root => "Unable to configure root logger"
  | .notIterable typeName => s!"'{typeName}' object is not iterable"
  | .unordered left right => s!"'<' not supported between instances of '{left}' and '{right}'"
  | .incomparable => ""
  | .reference fault => fault.message
  | .escaped _ => ""

/-- The fault that reports a value, shown as `render` says. A tuple is reported by its only item. -/
def ofValue (fault : String → LogFault) (render : Value → String) (v : Value) : LogFault :=
  match v.tupleItems? with
  | none => fault (render v)
  | some [] => .tooShort
  | some [item] => fault (render item)
  | some _ => .tooLong

/-- The fault that reports a name. -/
def ofName (fault : String → LogFault) (name : Value) : LogFault :=
  ofValue fault Value.written name

/-- The failure of a fault for which nothing stands in. -/
def failure? : LogFault → Option Failure
  | .incomparable => some .incomparableDecimal
  | .reference .missing => some .missingEntry
  | .reference .beyond => some .beyondEnd
  | .reference .endless => some .endlessReference
  | .escaped failure => some failure
  | _ => none

end LogFault

/-- The board that a configuration changes, the configuration in use, and what calls do. -/
structure LogWork where
  board : LogBoard
  draft : Draft
  calls : Outside → TableEntries → LogBoard → CallEnd × LogBoard := Outside.called
  deriving Inhabited

/-- Why a part of a configuration is not taken over: it cannot be used, it passes messages on to a handler
that is still to be made, or a call fails for which nobody answers. -/
inductive PartTrouble
  | unusable
  | waiting
  | escapes (failure : Failure)
  deriving Repr, DecidableEq

/-- How the trouble of a part is reported: as the given fault, if somebody answers for it. -/
def PartTrouble.reported (fault : LogFault) : PartTrouble → LogFault
  | .escapes failure => .escaped failure
  | .unusable | .waiting => fault

/-- Steps that take over a part of a configuration. -/
abbrev PartM := ExceptT PartTrouble (StateM LogWork)

/-- Steps that take over a configuration. -/
abbrev LogM := ExceptT LogFault (StateM LogWork)

namespace LogSetup

/-! ## Steps -/

/-- A step on the configuration in use. -/
def onDraft {ε α : Type} (trouble : DraftFault → ε) (m : DraftM α) : ExceptT ε (StateM LogWork) α := do
  let w ← get
  let (answer, draft) := m.run w.draft
  set { w with draft := draft }
  match answer with
  | .ok a => pure a
  | .error f => throw (trouble f)

/-- A step on the configuration in use, as a part of a section. -/
def inPart {α : Type} (m : DraftM α) : PartM α :=
  onDraft (fun _ => .unusable) m

/-- A step on the configuration in use, outside of the sections. -/
def atTop {α : Type} (m : DraftM α) : LogM α :=
  onDraft .reference m

/-- Takes over a part, whose trouble is reported as the given fault. -/
def partOf {α : Type} (fault : LogFault) (m : PartM α) : LogM α := fun w =>
  match m.run w with
  | (.ok a, w) => (.ok a, w)
  | (.error trouble, w) => (.error (trouble.reported fault), w)

/-- Changes the board. -/
def onBoard {ε : Type} (f : LogBoard → LogBoard) : ExceptT ε (StateM LogWork) Unit :=
  modify fun w => { w with board := f w.board }

/-- An item as a value. -/
def valueOf {ε : Type} (i : Item) : ExceptT ε (StateM LogWork) Value := do
  pure ((← get).draft.value i)

/-- The item counts as true. -/
def isTrue {ε : Type} (i : Item) : ExceptT ε (StateM LogWork) Bool := do
  pure ((← get).draft.truthy i)

/-- The value that stands for nothing. -/
def nothing : Item := .plain .null

/-- The entries of a part. -/
def entriesOf (part : Item) : PartM Access :=
  match part.entries? with
  | some a => pure a
  | none => throw .unusable

/-- The entries of a part that can be changed. -/
def changeableOf (part : Item) : PartM Access :=
  match part.changeable? with
  | some a => pure a
  | none => throw .unusable

/-- The entry of a part under a key, or what stands in for it. -/
def entryOf (part : Item) (key : String) (absent : Item) : PartM Item := do
  inPart (Draft.entryOr (← entriesOf part) key absent)

/-- The part has an entry under a key. -/
def hasEntry (part : Item) (key : String) : PartM Bool := do
  let a ← entriesOf part
  pure ((← get).draft.find? a.number (.text key)).isSome

/-- The part of a section under a name. -/
def member (all : Item) (name : Value) : PartM Item := do
  if !name.hashable then throw .unusable
  inPart (Draft.entry (← entriesOf all) name)

/-- The part of a section of the configuration under a name. -/
def memberOf (key : String) (name : Value) : PartM Item := do
  member (← inPart (Draft.entry Draft.top (.text key))) name

/-- Puts an item under a key. -/
def putEntry (a : Access) (key : Value) (i : Item) : PartM Unit :=
  inPart (modify fun d => d.put a.number key i)

/-- Replaces the part of a section by what has been made of it. -/
def replaceMember (all : Item) (name : Value) (i : Item) : PartM Unit := do
  putEntry (← changeableOf all) name i

/-! ## Makers -/

/-- The key under which a maker is named. -/
def makerKey : String := "()"

/-- The key of the properties that are set afterwards. -/
def propertiesKey : String := "."

/-- What can be called for a value: the value itself, or what a dotted name leads to. -/
def makerOf (i : Item) : PartM Outside :=
  match i with
  | .outside (.module _) | .outside (.other _) => throw .unusable
  | .outside o => pure o
  | .plain (.foreign (.classItself name _ exports)) => pure (.otherClass name !exports)
  | .plain (.foreign (.bare "function")) => pure (.function "function" "")
  | .plain v =>
    match v.text?.map Outside.resolve with
    | some (.ok o) => pure o
    | _ => throw .unusable
  | _ => throw .unusable

/-- The class of a dotted name. -/
def classOf (i : Item) : PartM Outside :=
  match i with
  | .plain v =>
    match v.text?.map Outside.resolve with
    | some (.ok o) => pure o
    | _ => throw .unusable
  | _ => throw .unusable

/-- The arguments that the entries of a part give. -/
def arguments (a : Access) : PartM TableEntries := do
  let es := (← get).draft.entries a.number
  (es.filter fun e => e.1.text? != some propertiesKey).mapM fun (key, _) => do
    match key.text? with
    | some _ => pure (key, ← inPart (Draft.entry a key))
    | none => throw .unusable

/-- An argument by its name. -/
def argument? (name : String) (given : TableEntries) : Option Item :=
  (given.find? fun e => e.1.text? == some name).map (·.2)

/-- All arguments have one of the given names. -/
def onlyNamed (names : List String) (given : TableEntries) : Bool :=
  given.all fun e => e.1.text?.any names.contains

/-- The names of properties that a made thing refuses. -/
def refusedProperties : List String := ["__class__", "__dict__"]

/-- The properties of a part that are set on what has been made, by name. -/
def properties (a : Access) : PartM (List (String × Item)) := do
  let i ← inPart (Draft.pop a propertiesKey nothing)
  if !(← isTrue i) then pure []
  else
    let es := (← get).draft.entries (← entriesOf i).number
    es.mapM fun (key, i) =>
      match key.text? with
      | some name => if refusedProperties.contains name then throw .unusable else pure (name, i)
      | none => throw .unusable

/-! ## Formatters -/

/-- The names of the arguments of a formatter; the second stands for the first. -/
def formatterArguments : List String := ["fmt", "format", "datefmt", "style", "validate", "defaults"]

/-- A formatter of a format and a style, checked or not. -/
def formatterWith (format style : Item) (checked : Bool) : PartM Item := do
  match LogFormat.make (← valueOf format) (← valueOf style) checked with
  | some format => pure (.formatter format)
  | none => throw .unusable

/-- The sign of the style of a formatter for which none is named. -/
def usualStyle : Item := .plain (.text "%")

/-! ## Filters -/

/-- The value has a length. -/
def hasLength : Value → Bool
  | .text _ | .textMember _ | .bytes _ | .binary _ _ | .list _ | .tuple _ | .namedTuple _ | .set _ _
  | .map _ _ | .foreign (.buffer _ _) | .foreign (.row _ _) => true
  | _ => false

/-- A filter by the name of a logger; the name must have a length. -/
def filterFor (name : Item) : PartM Item := do
  let name ← valueOf name
  if hasLength name then pure (.filter name) else throw .unusable

/-- The name of the filter that lets everything pass. -/
def noName : Item := .plain (.text "")

/-! ## Made things -/

/-- To what messages are passed on. -/
def targetOf (i : Item) : PartM LogTarget := do
  match i with
  | .handler n => pure (.handler n)
  | i => pure (if ← isTrue i then .stranger else .nowhere)

/-- What a call of a function or a class gives. -/
def called (maker : Outside) (given : TableEntries) : PartM Item := do
  let w ← get
  let (ending, board) := w.calls maker given w.board
  set { w with board := board }
  match ending with
  | .gives v => pure (.plain v)
  | .makes => pure .thing
  | .fails => throw .unusable
  | .escapes failure => throw (.escapes failure)

/-- What a maker makes of arguments. -/
def made (maker : Outside) (given : TableEntries) : PartM Item := do
  match maker with
  | .formatters _ =>
    if !onlyNamed formatterArguments given then throw .unusable
    formatterWith (((argument? "format" given).or (argument? "fmt" given)).getD nothing)
      ((argument? "style" given).getD usualStyle)
      (← isTrue ((argument? "validate" given).getD (.plain (.bool true))))
  | .filters _ =>
    if !onlyNamed ["name"] given then throw .unusable
    filterFor ((argument? "name" given).getD noName)
  | .handlers kind _ =>
    let target ← targetOf ((argument? "target" given).getD nothing)
    let given ← given.mapM fun (key, i) => do pure (key, ← valueOf i)
    let (board, number) := (← get).board.make kind given target
    onBoard fun _ => board
    match number with
    | some n => pure (.handler n)
    | none => throw .unusable
  | .otherClass _ _ | .function _ _ => called maker given
  | _ => throw .unusable

/-- What the maker of a part makes, with its properties. -/
def madeOf (part : Item) : PartM Item := do
  let a ← changeableOf part
  let maker ← makerOf (← inPart (Draft.pop a makerKey nothing))
  let i ← made maker (← arguments a)
  let set ← properties a
  match i, set.lookup "_fmt" with
  | .formatter _, some format => pure (.formatter (← valueOf format))
  | i, _ => pure i

/-- The formatter of a part. -/
def formatter (part : Item) : PartM Item := do
  if ← hasEntry part makerKey then madeOf part
  else
    let format ← entryOf part "format" nothing
    let _ ← entryOf part "datefmt" nothing
    let style ← entryOf part "style" usualStyle
    let kind ← entryOf part "class" nothing
    if ← isTrue kind then
      match ← classOf kind with
      | .formatters _ => pure ()
      | _ => throw .unusable
    let checked ← entryOf part "validate" (.plain (.bool true))
    formatterWith format style (← isTrue checked)

/-- The filter of a part. -/
def filter (part : Item) : PartM Item := do
  if ← hasEntry part makerKey then madeOf part
  else filterFor (← entryOf part "name" noName)

/-- The thing can be called. -/
def isCallable : Item → Bool
  | .outside (.module _) | .outside (.other _) | .outside (.value _) => false
  | .outside _ => true
  | .plain (.foreign (.bare "function")) => true
  | .plain (.foreign (.classItself _ _ _)) => true
  | _ => false

/-- The filter that a made thing is. -/
def filterOf : Item → LogFilter
  | .filter name => .source name
  | .handler _ => .source (.text "")
  | _ => .broken

/-- Hands on the filters that an item lists, one by one; what can be called is a filter itself. -/
def useFilters (filters : Item) (add : LogFilter → PartM Unit) : PartM Unit := do
  match (← get).draft.elements? filters with
  | none => throw .unusable
  | some names =>
    names.forM fun i => do
      if isCallable i then add .broken
      else add (filterOf (← memberOf "filters" (← valueOf i)))

/-! ## Handlers -/

/-- The format of a handler: none where no formatter is named. -/
def handlerFormat (name : Item) : PartM (Option Value) := do
  if !(← isTrue name) then pure none
  else
    match ← memberOf "formatters" (← valueOf name) with
    | .formatter format => pure (some format)
    | _ => pure none

/-- Finds the handler to which another one passes messages on. One that is still to be made is waited for,
and the part gets its first entries back. -/
def findTarget (a : Access) (first : TableEntries) : PartM Unit := do
  let key : Value := .text "target"
  let name ← inPart (Draft.entry a key)
  match ← memberOf "handlers" (← valueOf name) with
  | .handler target => putEntry a key (.handler target)
  | _ =>
    first.forM fun (key, i) => putEntry a key i
    throw .waiting

/-- Makes a tuple of a list under a key. -/
def makeTuple (a : Access) (key : String) : PartM Unit := do
  let i ← inPart (Draft.entryOr a key nothing)
  match ← valueOf i with
  | .list vs => putEntry a (.text key) (.tuple vs)
  | _ => pure ()

/-- The maker of a handler. The class that is named elsewhere gives way to a maker. -/
def handlerMaker (part : Item) (a : Access) (first : TableEntries) : PartM Outside := do
  if ← hasEntry part makerKey then makerOf (← inPart (Draft.pop a makerKey nothing))
  else
    let maker ← classOf (← inPart (Draft.pop a "class" nothing))
    match maker with
    | .handlers .memory _ => if ← hasEntry part "target" then findTarget a first
    | .handlers .mail _ => makeTuple a "mailhost"
    | .handlers .systemLog _ => makeTuple a "address"
    | .handlers _ _ | .formatters _ | .filters _ => pure ()
    | _ => throw .unusable
    pure maker

/-- A property may have the value: a name must be one under which a handler can be found. -/
def isSettable (name : String) (v : Value) : Bool :=
  name != "name" || v.hashable

/-- The handler with a property set. -/
def withProperty (h : LogHandler) (name : String) (v : Value) : LogHandler :=
  match name with
  | "level" => { h with level := v }
  | "formatter" => { h with format := none }
  | _ => h

/-- Changes a handler of the board. -/
def onHandler (n : Nat) (f : LogHandler → LogHandler) : PartM Unit :=
  onBoard fun b => { b with handlers := b.handlers.modify n f }

/-- A level that may be left open. -/
def levelOr (absent : Value) (level : Item) : PartM Value := do
  let v ← valueOf level
  if v.isNull then pure absent
  else
    match LogLevel.ofValue? v with
    | some level => pure level
    | none => throw .unusable

/-- The handler of a part, made with its format, its level, its filters and its properties. What is no
handler takes none of these but properties. -/
def handler (part : Item) : PartM Item := do
  let a ← changeableOf part
  let first := (← get).draft.entries a.number
  let format ← handlerFormat (← inPart (Draft.pop a "formatter" nothing))
  let level ← inPart (Draft.pop a "level" nothing)
  let filters ← inPart (Draft.pop a "filters" nothing)
  let maker ← handlerMaker part a first
  let i ← made maker (← arguments a)
  match i, maker with
  | .handler number, _ =>
    let level ← levelOr LogLevel.inherited level
    onHandler number fun h => { h with format := format, level := level }
    if ← isTrue filters then
      useFilters filters fun f => onHandler number fun h => { h with filters := h.filters ++ [f] }
    (← properties a).forM fun (name, i) => do
      let v ← valueOf i
      if !isSettable name v then throw .unusable
      onHandler number fun h => withProperty h name v
  | .formatter _, _ | .filter _, _ =>
    if format.isSome || !(← valueOf level).isNull || (← isTrue filters) then throw .unusable
    let _ ← properties a
  | _, _ => throw .unusable
  pure i

/-- The board in which a handler can be found by its name. -/
def nameHandler (name : Value) (i : Item) (b : LogBoard) : LogBoard :=
  match i with
  | .handler n =>
    if name.truthy then
      { b with named := (b.named.filter fun h => !h.1.same name) ++ [(name, n)] }
    else b
  | _ => b

/-! ## Loggers -/

/-- Changes a logger. -/
def onLogger (name : String) (f : Logger → Logger) : PartM Unit :=
  onBoard fun b => b.modify name f

/-- Attaches the handlers that an item lists to a logger, up to the first one that is not there. -/
def attachAll (name : String) (handlers : Item) : PartM Unit := do
  match (← get).draft.elements? handlers with
  | none => throw .unusable
  | some names =>
    names.forM fun i => do
      match ← memberOf "handlers" (← valueOf i) with
      | .handler n => onLogger name fun l => l.attach n
      | _ => throw .unusable

/-- Takes over the level, the handlers and the filters of a logger. A part that adds to an earlier
configuration changes the level alone. -/
def common (adding : Bool) (name : String) (part : Item) : PartM Unit := do
  let level ← levelOr ((← get).board.logger name).level (← entryOf part "level" nothing)
  onLogger name fun l => { l with level := level }
  if !adding then
    onLogger name fun l => { l with handlers := [] }
    let handlers ← entryOf part "handlers" nothing
    if ← isTrue handlers then attachAll name handlers
    let filters ← entryOf part "filters" nothing
    if ← isTrue filters then
      useFilters filters fun f => onLogger name fun l => { l with filters := l.filters ++ [f] }

/-- The name of a logger: what counts as false names the root logger. -/
def loggerName? (name : Value) : Option String :=
  if name.truthy then name.text? else some ""

/-- Takes over what a configuration says of a logger. -/
def logger (adding : Bool) (name : Value) (part : Item) : PartM Unit := do
  match loggerName? name with
  | none => throw .unusable
  | some known =>
    onBoard fun b => b.ensure known
    common adding known part
    onLogger known fun l => { l with disabled := .bool false }
    let propagate ← valueOf (← entryOf part "propagate" nothing)
    if !propagate.isNull then onLogger known fun l => { l with propagate := propagate }

/-- Takes over what a configuration says of the root logger. -/
def root (adding : Bool) : LogM Unit := do
  let part ← atTop (Draft.entryOr Draft.top "root" nothing)
  if ← isTrue part then partOf .root (common adding "" part)

/-! ## Sections -/

/-- The names of a section. -/
def namesOf (section_ : Item) : LogM (List Value) := do
  match (← get).draft.elements? section_ with
  | some names => names.mapM valueOf
  | none => throw (.notIterable (← valueOf section_).kindName)

/-- Replaces the parts of a section by what is made of them. -/
def replaceAll (key : String) (fault : String → LogFault) (make : Item → PartM Item) : LogM Unit := do
  let all ← atTop (Draft.sectionOf key)
  for name in ← namesOf all do
    partOf (.ofName fault name) do
      replaceMember all name (← make (← member all name))

/-- The first of two values that have no order themselves: they, or the first items in which they differ. -/
def clashOf (a b : Value) : Value × Value :=
  match a.tupleItems?, b.tupleItems? with
  | some xs, some ys => ((xs.zip ys).find? fun (x, y) => !x.same y).getD (a, b)
  | _, _ => (a, b)

/-- The first value comes before the second. -/
def comesBefore (a b : Value) : Except LogFault Bool :=
  match a.precedes b with
  | .ok answer => .ok answer
  | .error .decimal => .error .incomparable
  | .error .kinds =>
    let (x, y) := clashOf a b
    .error (.unordered x.kindName y.kindName)

/-- The names in ascending order. -/
def ascending (names : List Value) : Except LogFault (List Value) :=
  Sorting.sortWith comesBefore names

/-- Makes the handler of a name. -/
def oneHandler (all : Item) (name : Value) : PartM Unit := do
  let i ← handler (← member all name)
  onBoard (nameHandler name i)
  replaceMember all name i

/-- Makes the handlers of the given names in turn, and gives the names of those that wait for another
one. -/
def makeHandlers (all : Item) : List Value → LogM (List Value)
  | [] => pure []
  | name :: names => do
    let w ← get
    match (oneHandler all name).run w with
    | (.ok _, w) =>
      set w
      makeHandlers all names
    | (.error trouble, w) =>
      set w
      if trouble = .waiting then
        let waiting ← makeHandlers all names
        pure (name :: waiting)
      else throw (trouble.reported (.ofName .handler name))

/-- Makes all handlers, in ascending order of their names, and then those that wait for another one. -/
def handlers : LogM Unit := do
  let all ← atTop (Draft.sectionOf "handlers")
  let waiting ← makeHandlers all (← ascending (← namesOf all))
  for name in waiting do
    partOf (.ofName .handler name) (oneHandler all name)

/-- Changes the level of a handler that an earlier configuration has made. -/
def handlerLevel (n : Nat) (part : Item) : PartM Unit := do
  let level ← entryOf part "level" nothing
  if ← isTrue level then
    let level ← levelOr LogLevel.inherited level
    onHandler n fun h => { h with level := level }

/-! ## Whole configurations -/

/-- The names that stand below a name. -/
def below (name : String) (names : List String) : List String :=
  names.filter fun n => (Text.dropPrefix? (name ++ ".").toList n.toList).isSome

/-- The names that no part of a configuration names, and those among all names that stand below a named
one. -/
def unnamed (taken : List String) (parts : List Value) : List String × List String :=
  parts.foldl
    (fun (rest, children) name =>
      match name.text? with
      | some n =>
        if rest.contains n then
          (rest.erase n, children ++ below n rest)
        else (rest, children)
      | none => (rest, children))
    (taken, [])

/-- Settles the loggers that a configuration does not name: one below a named logger starts afresh, and
any other one is disabled as the configuration says. -/
def settle (rest children : List String) (disable : Value) (b : LogBoard) : LogBoard :=
  { b with
    loggers := b.loggers.map fun (name, l) =>
      if rest.contains name then
        if children.contains name then
          (name, { l with level := LogLevel.inherited, handlers := [], propagate := .bool true })
        else (name, { l with disabled := disable })
      else (name, l) }

/-- Takes over what a configuration says of its loggers, and gives their names. -/
def loggers (adding : Bool) : LogM (List Value) := do
  let all ← atTop (Draft.sectionOf "loggers")
  let names ← namesOf all
  for name in names do
    partOf (.ofName .logger name) do logger adding name (← member all name)
  pure names

/-- Takes over a configuration that adds to an earlier one: it changes levels. -/
def add : LogM Unit := do
  let all ← atTop (Draft.sectionOf "handlers")
  for name in ← namesOf all do
    match (← get).board.named.find? fun h => h.1.same name with
    | none => throw (.ofName .unknownHandler name)
    | some (_, n) => partOf (.ofName .handler name) do handlerLevel n (← member all name)
  let _ ← loggers true
  root true

/-- Takes over a configuration that replaces an earlier one. -/
def replace : LogM Unit := do
  let disable ← valueOf (← atTop (Draft.pop Draft.top "disable_existing_loggers" (.plain (.bool true))))
  onBoard fun b => { b with named := [] }
  replaceAll "formatters" .formatter formatter
  replaceAll "filters" .filter filter
  handlers
  let taken := (← get).board.known
  let (rest, children) := unnamed taken (← loggers false)
  onBoard (settle rest children disable)
  root false

/-- The version of configurations. -/
def version : Value := .int 1

/-- Takes over a configuration. -/
def apply : LogM Unit := do
  let given ← valueOf (← atTop (Draft.entryOr Draft.top "version" nothing))
  if given.disturbs version then throw .incomparable
  else if !given.same version then
    let again ← valueOf (← atTop (Draft.entryOr Draft.top "version" nothing))
    throw (.ofValue .version Value.shown again)
  else
    let incremental ← atTop (Draft.pop Draft.top "incremental" (.plain (.bool false)))
    if ← isTrue incremental then add else replace

end LogSetup

end FileDepot
