import FileDepot.Regex.Reader
import FileDepot.Yaml.Node

/-!
# The kinds of YAML nodes

Contents:

* `Yaml.Kind` — what a tag names, or what the text of a scalar implies;
* `Yaml.impliedKind` — the kind that a scalar has by its text;
* `Yaml.Tag.scalarKind`, `Yaml.Tag.sequenceKind`, `Yaml.Tag.mappingKind` — the kind of a node.
-/

namespace FileDepot.Yaml

/-! ## Forms -/

/-- The expression that a text spells. -/
def form (written : String) : Regex :=
  (Regex.read written.toList).toOption.getD .empty

/-- The texts of truth values. -/
def truthForm : Regex :=
  form "^(?:yes|Yes|YES|no|No|NO|true|True|TRUE|false|False|FALSE|on|On|ON|off|Off|OFF)$"

/-- The texts of whole numbers: binary, octal, decimal, hexadecimal, and in base sixty. -/
def wholeForm : Regex :=
  form ("^(?:[-+]?0b[0-1_]+|[-+]?0[0-7_]+|[-+]?(?:0|[1-9][0-9_]*)|[-+]?0x[0-9a-fA-F_]+" ++
    "|[-+]?[1-9][0-9_]*(?::[0-5]?[0-9])+)$")

/-- The texts of fractions: with a point, and in base sixty; and the words for what is no number. -/
def fractionForm : Regex :=
  form ("^(?:[-+]?(?:[0-9][0-9_]*)\\.[0-9_]*(?:[eE][-+][0-9]+)?|\\.[0-9][0-9_]*(?:[eE][-+][0-9]+)?" ++
    "|[-+]?[0-9][0-9_]*(?::[0-5]?[0-9])+\\.[0-9_]*|[-+]?\\.(?:inf|Inf|INF)|\\.(?:nan|NaN|NAN))$")

/-- The texts of nothing, but for the empty one. -/
def nullForm : Regex :=
  form "^(?:~|null|Null|NULL)$"

/-- A time of day behind a date. -/
def dayTimeForm : String :=
  "(?:[Tt]|[ \\t]+)[0-9][0-9]?:[0-9][0-9]:[0-9][0-9](?:\\.[0-9]*)?" ++
    "(?:[ \\t]*(?:Z|[-+][0-9][0-9]?(?::[0-9][0-9])?))?"

/-- The texts of dates and times. -/
def timestampForm : Regex :=
  form ("^(?:[0-9][0-9][0-9][0-9]-[0-9][0-9]-[0-9][0-9]" ++
    "|[0-9][0-9][0-9][0-9]-[0-9][0-9]?-[0-9][0-9]?" ++ dayTimeForm ++ ")$")

/-- The text of the key that merges mappings. -/
def mergeForm : Regex :=
  form "^<<$"

/-- The text of the key of a default value. -/
def defaultForm : Regex :=
  form "^=$"

/-- The signs of the notation, which are no texts of their own. -/
def signForm : Regex :=
  form "^[!&*]$"

/-! ## Kinds -/

/-- The kinds of nodes. -/
inductive Kind
  | null
  | truth
  | whole
  | fraction
  | timestamp
  | text
  | binary
  | merge
  | default
  | sequence
  | mapping
  | set
  /-- A sequence of mappings with one entry each. -/
  | pairs
  | other
  deriving Repr, DecidableEq

/-- The kind that a scalar has by its text. As in every form, a line break at the end does not count; but
it makes the text one that is not empty. -/
def impliedKind (text : String) : Kind :=
  let has (r : Regex) : Bool := r.matchesStart {} text.toList
  if text = "" then .null
  else if has truthForm then .truth
  else if has fractionForm then .fraction
  else if has wholeForm then .whole
  else if has mergeForm then .merge
  else if has nullForm then .null
  else if has timestampForm then .timestamp
  else if has defaultForm then .default
  else if has signForm then .other
  else .text

/-- What the tags of the standard kinds start with. -/
def standardTag : String := "tag:yaml.org,2002:"

/-- The tags of the standard kinds. -/
def standardKinds : List (String × Kind) :=
  [("null", .null), ("bool", .truth), ("int", .whole), ("float", .fraction),
    ("timestamp", .timestamp), ("str", .text), ("binary", .binary), ("merge", .merge),
    ("value", .default), ("seq", .sequence), ("map", .mapping), ("set", .set), ("omap", .pairs),
    ("pairs", .pairs)]

/-- The kind that a tag names. -/
def namedKind (name : String) : Kind :=
  ((standardKinds.find? fun e => standardTag ++ e.1 == name).map (·.2)).getD .other

namespace Tag

/-- The kind of a scalar. -/
def scalarKind (tag : Tag) (text : String) : Kind :=
  match tag with
  | .named name => namedKind name
  | .implied true => impliedKind text
  | .implied false => .text

/-- The kind of a sequence. -/
def sequenceKind : Tag → Kind
  | .named name => namedKind name
  | .implied _ => .sequence

/-- The kind of a mapping. -/
def mappingKind : Tag → Kind
  | .named name => namedKind name
  | .implied _ => .mapping

end Tag

end FileDepot.Yaml
