/-!
# Failures

What an operation reports when it cannot answer.

Contents:

* `Rule`, `Issue` — a setting that is not acceptable;
* `Failure` — the failures;
* `Failure.text?` — the wording, for those that have one;
* `Failure.origin` — what a failure comes from.
-/

namespace FileDepot

/-- The rules that a setting can break. -/
inductive Rule
  | text
  | readableText
  | whole
  | readableWhole
  | shortWhole
  | unbrokenWhole
  | finiteWhole
  | atLeast
  | atMost
  | flag
  | readableFlag
  | mapping
  | group
  | key
  | nameNotBlank
  deriving Repr, DecidableEq, Inhabited

namespace Rule

/-- The name under which a broken rule is reported. -/
def name : Rule → String
  | .text => "string_type"
  | .readableText => "string_unicode"
  | .whole => "int_type"
  | .readableWhole => "int_parsing"
  | .shortWhole => "int_parsing_size"
  | .unbrokenWhole => "int_from_float"
  | .finiteWhole => "finite_number"
  | .atLeast => "greater_than_equal"
  | .atMost => "less_than_equal"
  | .flag => "bool_type"
  | .readableFlag => "bool_parsing"
  | .mapping => "dict_type"
  | .group => "model_type"
  | .key => "invalid_key"
  | .nameNotBlank => "value_error"

/-- The wording of a broken rule, for the one that has a wording of its own. -/
def wording? : Rule → Option String
  | .nameNotBlank => some "Value error, database name must not be blank"
  | _ => none

end Rule

/-- A setting that is not acceptable: the keys that lead to it, and the rule that it breaks. -/
structure Issue where
  location : List String
  rule : Rule
  deriving Repr, DecidableEq, Inhabited

/-- The keys that lead to a setting, in one text. -/
def Issue.path (i : Issue) : String :=
  ".".intercalate i.location

/-- Why an operation has no answer. -/
inductive Failure
  /-- A value that is not acceptable. -/
  | invalid (reason : String)
  /-- A value of a kind that the operation does not take. -/
  | wrongKind
  /-- A value that lacks an operation of its kind. -/
  | lacksOperation
  /-- A value that has no form as a document. -/
  | unconvertible (typeName : String)
  /-- A regular expression that cannot be read. -/
  | badExpression (reason : String)
  /-- A stream that has been handed out before. -/
  | streamTaken (reason : String)
  /-- A file that the store does not have. -/
  | noFile (reason : String)
  /-- A decimal with more digits than a stored one has. -/
  | inexactDecimal
  /-- A decimal beyond the greatest stored one. -/
  | decimalOverflow
  /-- A comparison with a decimal that is no number. -/
  | incomparableDecimal
  /-- A word that is none of the words for a truth value. -/
  | unknownWord
  /-- Nothing where a character is needed. -/
  | nothingWritten
  /-- An entry that is not there. -/
  | missingEntry
  /-- A place behind the last one. -/
  | beyondEnd
  /-- A reference that leads back to itself. -/
  | endlessReference
  /-- Something for which no way has been laid down. -/
  | unfinished
  /-- A number too large for the kind that it is asked to have. -/
  | outOfRange
  /-- An operator that the store does not know. -/
  | unknownOperator (name : String)
  /-- The end of the program, which has been asked for. -/
  | ended
  /-- A file of the file system that does not exist; `shown` is its path as it is reported. -/
  | missingPath (shown : String)
  /-- A directory where a file is needed. -/
  | isDirectory (shown : String)
  /-- A file where a directory is needed. -/
  | notDirectory (shown : String)
  /-- A file where a directory is to be made. -/
  | pathTaken (shown : String)
  /-- A name that is longer than the file system takes. -/
  | nameTooLong (shown : String)
  /-- A settings file that spells no value. -/
  | malformedFile (shown : String)
  /-- Something that was looked for by its name and is not there. -/
  | notFound (reason : String)
  /-- Bytes that spell no text. -/
  | undecodable (reason : String)
  /-- A setting of the environment that cannot be read. -/
  | badEnvironment
  /-- Settings that break rules. -/
  | rejected (issues : List Issue)
  /-- Settings of a file that break rules. -/
  | rejectedFile (issues : List Issue)
  deriving Repr, DecidableEq, Inhabited

namespace Failure

/-- The wording of a failure, if it has one of its own. -/
def text? : Failure → Option String
  | .invalid reason => some reason
  | .wrongKind => none
  | .lacksOperation => none
  | .unconvertible typeName => some s!"Cannot convert {typeName} to a metadata document"
  | .badExpression reason => some reason
  | .streamTaken reason => some reason
  | .noFile reason => some reason
  | .inexactDecimal => none
  | .decimalOverflow => none
  | .incomparableDecimal => none
  | .unknownWord => none
  | .nothingWritten => none
  | .missingEntry => none
  | .beyondEnd => none
  | .endlessReference => none
  | .unfinished => none
  | .outOfRange => none
  | .unknownOperator _ => none
  | .ended => none
  | .missingPath shown => some s!"[Errno 2] No such file or directory: {shown}"
  | .isDirectory shown => some s!"[Errno 21] Is a directory: {shown}"
  | .notDirectory shown => some s!"[Errno 20] Not a directory: {shown}"
  | .pathTaken shown => some s!"[Errno 17] File exists: {shown}"
  | .nameTooLong shown => some s!"[Errno 36] File name too long: {shown}"
  | .malformedFile shown => some s!"Invalid YAML in {shown}"
  | .notFound reason => some reason
  | .undecodable reason => some reason
  | .badEnvironment => none
  | .rejected _ => none
  | .rejectedFile _ => some "Configuration validation failed:"

/-- What a failure comes from. -/
inductive Origin
  /-- A value that is not acceptable. -/
  | value
  /-- The file system. -/
  | fileSystem
  /-- The store. -/
  | store
  /-- Anything else. -/
  | other
  deriving Repr, DecidableEq, Inhabited

/-- What the failure comes from. -/
def origin : Failure → Origin
  | .invalid _ | .malformedFile _ | .undecodable _ | .badEnvironment | .rejected _ | .rejectedFile _ =>
    .value
  | .missingPath _ | .isDirectory _ | .notDirectory _ | .pathTaken _ | .nameTooLong _ | .notFound _ =>
    .fileSystem
  | .noFile _ => .store
  | .wrongKind | .lacksOperation | .unconvertible _ | .badExpression _ | .streamTaken _
  | .inexactDecimal | .decimalOverflow | .incomparableDecimal | .unknownWord | .nothingWritten
  | .missingEntry | .beyondEnd | .endlessReference | .unfinished | .outOfRange | .unknownOperator _ | .ended => .other

end Failure

end FileDepot
