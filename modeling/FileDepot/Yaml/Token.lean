/-!
# YAML tokens

Contents:

* `Yaml.Directive` — the directives in front of a document;
* `Yaml.Token` — the tokens of a text.
-/

namespace FileDepot.Yaml

/-- A directive in front of a document. -/
inductive Directive
  | version (major minor : Nat)
  | handle (name expansion : String)
  | unknown
  deriving Repr, DecidableEq, Inhabited

/-- A token. The tokens that open and close block collections come from the indentation. -/
inductive Token
  | directive (d : Directive)
  | documentStart
  | documentEnd
  | streamEnd
  | blockSequenceStart
  | blockMappingStart
  | blockEnd
  | flowSequenceStart
  | flowSequenceEnd
  | flowMappingStart
  | flowMappingEnd
  | blockEntry
  | flowEntry
  | key
  | value
  | reference (name : String)
  | anchor (name : String)
  | tag (handle : Option String) (suffix : String)
  | scalar (text : String) (plain : Bool)
  deriving Repr, DecidableEq, Inhabited

end FileDepot.Yaml
