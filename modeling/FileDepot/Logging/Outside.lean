import FileDepot.Logging.Handler
import FileDepot.Value.Show

/-!
# Things outside of a configuration

A configuration may name things of the program around it by dotted names: the first part names a module,
and each further part something in what the parts before it lead to.

Contents:

* `Outside` — what a dotted name can lead to;
* `OutsideModule`, `OutsideModule.all` — the modules that are known, with what is in them;
* `Outside.resolve` — what a dotted name leads to, or `ResolveFault`.
-/

namespace FileDepot

/-- Something of the program around a configuration. -/
inductive Outside
  | module (name : String)
  | value (v : Value)
  /-- The class of a kind of handlers. -/
  | handlers (kind : HandlerKind) (name : String)
  /-- The class of formatters. -/
  | formatters (name : String)
  /-- The class of filters. -/
  | filters (name : String)
  /-- Any other class; `plain` tells that an instance needs no arguments. -/
  | otherClass (name : String) (plain : Bool)
  /-- A function, with its dotted name; one that was given has none. -/
  | function (typeName name : String)
  /-- Anything else. -/
  | other (typeName : String)
  deriving Repr, Inhabited

namespace Outside

/-- The thing as a value. -/
def asValue : Outside → Value
  | .value v => v
  | .module _ => .foreign (.sealed "module")
  | .handlers _ name | .formatters name | .filters name | .otherClass name _ =>
    .foreign (.classItself name "type" false)
  | .function typeName _ => .foreign (.bare typeName)
  | .other typeName => .foreign (.sealed typeName)

end Outside

/-- A module: its name, whether other modules may stand below it, and what is in it. -/
structure OutsideModule where
  name : String
  package : Bool := false
  parts : List (String × Outside)

namespace OutsideModule

/-- The kinds of handlers of a module by their names. -/
def handlerParts (module : String) (kinds : List HandlerKind) : List (String × Outside) :=
  kinds.map fun k => (k.name, .handlers k (module ++ "." ++ k.name))

/-- Whole numbers by their names. -/
def wholeParts (ns : List (String × Int)) : List (String × Outside) :=
  ns.map fun (name, n) => (name, .value (.int n))

/-- Texts by their names. -/
def textParts (ts : List (String × String)) : List (String × Outside) :=
  ts.map fun (name, s) => (name, .value (.text s))

/-- Truth values by their names. -/
def flagParts (bs : List (String × Bool)) : List (String × Outside) :=
  bs.map fun (name, b) => (name, .value (.bool b))

/-- Modules by their names. -/
def moduleParts (names : List String) : List (String × Outside) :=
  names.map fun name => (name, .module name)

/-- Functions of one kind in a module by their names. -/
def functionParts (module typeName : String) (names : List String) : List (String × Outside) :=
  names.map fun name => (name, .function typeName (module ++ "." ++ name))

/-- Classes of a module whose instances need arguments, or need none. -/
def classParts (module : String) (plain : Bool) (names : List String) : List (String × Outside) :=
  names.map fun name => (name, .otherClass (module ++ name) plain)

/-- The main module of logging. -/
def logging : OutsideModule where
  name := "logging"
  package := true
  parts :=
    handlerParts "logging" HandlerKind.main ++ wholeParts LogLevel.names ++
      textParts [("BASIC_FORMAT", LogBoard.basicFormat)] ++
      flagParts [("raiseExceptions", true), ("logThreads", true), ("logProcesses", true),
        ("logMultiprocessing", true)] ++
      classParts "logging." true
        ["BufferingFormatter", "Filterer"] ++
      classParts "logging." false
        ["LogRecord", "Logger", "LoggerAdapter", "Manager", "PercentStyle", "PlaceHolder", "RootLogger",
          "StrFormatStyle", "StringTemplateStyle"] ++
      functionParts "logging" "function"
        ["addLevelName", "basicConfig", "captureWarnings", "critical", "debug", "disable", "error",
          "exception", "fatal", "getLevelName", "getLevelNamesMapping", "getLogRecordFactory", "getLogger",
          "getLoggerClass", "info", "log", "makeLogRecord", "setLogRecordFactory", "setLoggerClass",
          "shutdown", "warn", "warning"] ++
      moduleParts ["io", "os", "sys"] ++
      [("Formatter", .formatters "logging.Formatter"), ("Filter", .filters "logging.Filter"),
        ("config", .module "logging.config"), ("handlers", .module "logging.handlers"),
        ("lastResort", .other "_StderrHandler"), ("root", .other "RootLogger")]

/-- The module of further handlers. -/
def handlers : OutsideModule where
  name := "logging.handlers"
  parts :=
    handlerParts "logging.handlers" HandlerKind.further ++
      wholeParts
        [("DEFAULT_TCP_LOGGING_PORT", 9020), ("DEFAULT_UDP_LOGGING_PORT", 9021),
          ("DEFAULT_HTTP_LOGGING_PORT", 9022), ("DEFAULT_SOAP_LOGGING_PORT", 9023),
          ("SYSLOG_UDP_PORT", 514), ("SYSLOG_TCP_PORT", 514), ("ST_DEV", 2), ("ST_INO", 1),
          ("ST_MTIME", 8)] ++
      classParts "logging.handlers." false ["QueueListener"] ++
      moduleParts ["io", "logging", "os"]

/-- The module that takes over configurations. -/
def config : OutsideModule where
  name := "logging.config"
  parts :=
    wholeParts [("DEFAULT_LOGGING_CONFIG_PORT", 9030), ("RESET_ERROR", 104)] ++
      classParts "logging.config." false ["BaseConfigurator", "DictConfigurator"] ++
      functionParts "logging.config" "function"
        ["dictConfig", "fileConfig", "listen", "stopListening", "valid_ident"] ++
      moduleParts ["io", "logging", "os"]

/-- The module of the running system. -/
def sys : OutsideModule where
  name := "sys"
  parts :=
    ["stdin", "stdout", "stderr", "__stdin__", "__stdout__", "__stderr__"].map
        (fun name => (name, .other "TextIOWrapper")) ++
      wholeParts [("maxsize", 9223372036854775807), ("maxunicode", 1114111), ("api_version", 1013)] ++
      textParts [("platform", "linux"), ("byteorder", "little"), ("float_repr_style", "short")] ++
      functionParts "sys" "builtin_function_or_method" ["exit", "getsizeof", "intern", "getrecursionlimit"]

/-- The module of the operating system. -/
def os : OutsideModule where
  name := "os"
  parts :=
    textParts
        [("curdir", "."), ("pardir", ".."), ("sep", "/"), ("extsep", "."), ("pathsep", ":"),
          ("linesep", "\n"), ("devnull", "/dev/null"), ("name", "posix"), ("defpath", "/bin:/usr/bin")] ++
      wholeParts [("F_OK", 0), ("R_OK", 4), ("W_OK", 2), ("X_OK", 1), ("SEEK_SET", 0), ("SEEK_CUR", 1),
        ("SEEK_END", 2), ("O_RDONLY", 0), ("O_WRONLY", 1), ("O_RDWR", 2), ("EX_OK", 0)] ++
      functionParts "os" "function" ["getenv", "makedirs", "popen", "fdopen"] ++
      functionParts "os" "builtin_function_or_method" ["getcwd", "getpid", "listdir", "mkdir", "remove"] ++
      [("altsep", .value .null), ("path", .other "module"), ("environ", .other "_Environ")] ++
      moduleParts ["sys"]

/-- The module of streams. -/
def io : OutsideModule where
  name := "io"
  parts :=
    wholeParts [("SEEK_SET", 0), ("SEEK_CUR", 1), ("SEEK_END", 2), ("DEFAULT_BUFFER_SIZE", 8192)] ++
      classParts "_io." true ["StringIO", "BytesIO"] ++
      classParts "_io." false ["TextIOWrapper", "FileIO", "BufferedReader", "BufferedWriter"] ++
      functionParts "io" "builtin_function_or_method" ["open"]

/-- The module of what is always at hand. -/
def builtins : OutsideModule where
  name := "builtins"
  parts :=
    flagParts [("True", true), ("False", false)] ++ [("None", .value .null)] ++
      classParts "" true ["object", "dict", "list", "set", "frozenset", "tuple", "str", "bytes", "bytearray",
        "int", "float", "complex", "bool"] ++
      classParts "" false ["range", "memoryview", "type", "map", "zip"] ++
      functionParts "builtins" "builtin_function_or_method" ["abs", "callable", "id", "len", "open", "print", "repr"]

/-- The modules that are known. -/
def all : List OutsideModule :=
  [logging, handlers, config, sys, os, io, builtins]

/-- The module of a name. -/
def find? (name : String) : Option OutsideModule :=
  all.find? fun m => m.name == name

end OutsideModule

/-- Why a dotted name leads nowhere. -/
inductive ResolveFault
  /-- The first part is empty. -/
  | nameless
  /-- There is no module of a name. -/
  | missing (name : String)
  /-- No module can stand below another one. -/
  | below (name parent : String)
  deriving Repr, DecidableEq, Inhabited

namespace Outside

/-- What stands under a name in a thing. -/
def part? (o : Outside) (name : String) : Option Outside :=
  match o with
  | .module m => (OutsideModule.find? m).bind fun m => m.parts.lookup name
  | _ => none

/-- Why there is no module below the one of the name `parent`, reached by the further parts of a name. -/
def moduleFault (parent : String) : List String → ResolveFault
  | [] => .missing parent
  | part :: parts =>
    let name := parent ++ "." ++ part
    match OutsideModule.find? parent with
    | none => .missing parent
    | some m =>
      if !m.package then .below name parent
      else if (OutsideModule.find? name).isSome then moduleFault name parts
      else .missing name

/-- What the parts of a name lead to from a thing on. `first` and `used` name the parts up to the thing. -/
def resolveFrom (first : String) (used : List String) (o : Outside) :
    List String → Except ResolveFault Outside
  | [] => .ok o
  | part :: parts =>
    match o.part? part with
    | some o => resolveFrom first (used ++ [part]) o parts
    | none => .error (moduleFault first (used ++ [part]))

/-- What a dotted name leads to. -/
def resolve (name : String) : Except ResolveFault Outside :=
  match (Text.splitOn '.' name.toList).map String.ofList with
  | [] => .error .nameless
  | first :: parts =>
    if first = "" then .error .nameless
    else
      match OutsideModule.find? first with
      | none => .error (.missing first)
      | some m => resolveFrom first [] (.module m.name) parts

end Outside

/-- How a dotted name that leads nowhere is reported. -/
def ResolveFault.message (name : String) : ResolveFault → String
  | .nameless => "Empty module name"
  | .missing module => s!"Cannot resolve {Text.quoted name}: No module named {Text.quoted module}"
  | .below module parent =>
    s!"Cannot resolve {Text.quoted name}: No module named {Text.quoted module}; " ++
      s!"{Text.quoted parent} is not a package"

end FileDepot
