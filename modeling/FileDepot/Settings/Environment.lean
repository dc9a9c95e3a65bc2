import FileDepot.Json.Reader
import FileDepot.Settings.Basic
import FileDepot.Text.Case

/-!
# Settings from environment variables

A section may be given whole, as JSON under its own name, and entry by entry, under names that join the
keys by two underscores. Single entries win over the whole section. Names are read without regard to
case. A settings file may lay down other rules for names and texts.

Contents:

* `Environment` — the variables;
* `VariableRules` — how the names and texts of variables are read;
* `Value.overlay` — one document laid over another;
* `EnvironmentSection` — what is known of a section before any variable is read;
* `EnvironmentSection.read` — the section that the variables give.
-/

namespace FileDepot

/-! ## Variables -/

/-- Variables in the order in which they were first set. -/
structure Environment where
  bindings : List (String × String) := []
  deriving Repr, DecidableEq, Inhabited

namespace Environment

/-- The variables with another one; a variable that is set again keeps its place. -/
def assign (name text : String) : List (String × String) → List (String × String)
  | [] => [(name, text)]
  | (n, t) :: rest => if n = name then (name, text) :: rest else (n, t) :: assign name text rest

/-- The environment with a variable set. No name or text holds a null, and no name an equals sign. -/
def set (e : Environment) (name text : String) : Except Failure Environment :=
  if name.toList.contains '\x00' || text.toList.contains '\x00' then
    .error (.invalid "embedded null byte")
  else if name.toList.contains '=' then .error (.invalid "illegal environment variable name")
  else .ok ⟨assign name text e.bindings⟩

/-- The environment without a variable. -/
def unset (e : Environment) (name : String) : Environment :=
  ⟨e.bindings.filter fun v => v.1 != name⟩

/-- The text of a variable. -/
def value? (e : Environment) (name : String) : Option String :=
  e.bindings.lookup name

end Environment

/-! ## Layers -/

namespace Value

mutual

/-- A value with another one laid over it: mappings are joined entry by entry, and otherwise the upper
value counts alone. -/
def overlay (lower upper : Value) : Value :=
  match upper with
  | .map k es =>
    match lower with
    | .map _ base => .map k (Entries.update base (overlayEntries base es))
    | _ => .map k es
  | v => v
termination_by structural upper

/-- The entries of the upper mapping, each laid over the entry of the same key. -/
def overlayEntries (base : List (Value × Value)) : List (Value × Value) → List (Value × Value)
  | [] => []
  | (key, v) :: es =>
    (key, match Entries.lookup? key base with
      | some b => overlay b v
      | none => v) :: overlayEntries base es
termination_by structural es => es

end

end Value

/-! ## Rules for variables -/

/-- How the names and texts of variables are read. -/
structure VariableRules where
  /-- What the name of every variable starts with. -/
  mark : String := "PYGRIDFS_"
  /-- What joins the keys in the name of a variable; no keys are joined if it is empty. -/
  joint : String := "__"
  /-- Names that differ in case are different names. -/
  caseMatters : Bool := false
  /-- Variables with an empty text do not count. -/
  skipsEmpty : Bool := false
  /-- How many joints are looked for in a name. -/
  jointLimit : Option Nat := none
  /-- The text that stands for nothing. -/
  nullText : Option String := none
  /-- The names of rules that lay down further places to read settings from. These are not read here. -/
  further : List String := []
  deriving Repr, DecidableEq, Inhabited

namespace VariableRules

/-- A name as it is compared. -/
def folded (r : VariableRules) (name : String) : String :=
  if r.caseMatters then name else Text.lowered name

/-- The name of the variable for a whole section or field. -/
def nameOf (r : VariableRules) (field : String) : String :=
  r.folded (r.mark ++ field)

/-- The variables under the names that are compared. Of names that fall together the last one counts. -/
def bindings (r : VariableRules) (e : Environment) : List (String × String) :=
  (e.bindings.filter fun v => !(r.skipsEmpty && v.2 == "")).foldl
    (fun vs v => Environment.assign (r.folded v.1) v.2 vs) []

/-- The entry of a settings file for one of the rules; null lays down nothing. -/
def laidDown? (es : Entries) (name : String) : Option Value :=
  (es.get? name).filter fun v => !v.isNull

/-- The names of the rules for files of variables, secrets, command lines and defaults. -/
def furtherNames : List String :=
  ["_nested_model_default_partial_update", "_env_file", "_env_file_encoding", "_env_parse_enums", "_secrets_dir",
    "_cli_prog_name", "_cli_parse_args", "_cli_settings_source", "_cli_parse_none_str", "_cli_hide_none_type",
    "_cli_avoid_json", "_cli_enforce_required", "_cli_use_class_docs_for_groups", "_cli_exit_on_error",
    "_cli_prefix", "_cli_flag_prefix_char", "_cli_implicit_flags", "_cli_ignore_unknown_args", "_cli_kebab_case",
    "_cli_shortcuts", "_build_sources"]

/-- What the name of every variable starts with, by a settings file. -/
def markOf (v : Value) : Except Failure String :=
  match v with
  | .text s => .ok s
  | .list _ | .map _ _ | .set _ _ | .bytes _ => .error .badEnvironment
  | _ => .error .wrongKind

/-- How many joints are looked for, by a settings file: one less than the greatest number of keys. -/
def jointLimitOf (v : Value) : Except Failure (Option Nat) :=
  match v.whole? with
  | some n => .ok (if n < 1 then none else some (n.toNat - 1))
  | none => if v.truthy then .error .wrongKind else .ok none

/-- The rules that the entries of a settings file lay down. -/
def ofEntries (es : Entries) : Except Failure VariableRules := do
  let base : VariableRules := {}
  let mark ← ((laidDown? es "_env_prefix").map markOf).getD (.ok base.mark)
  let limit ← ((laidDown? es "_env_nested_max_split").map jointLimitOf).getD (.ok none)
  .ok
    { mark
      joint := ((laidDown? es "_env_nested_delimiter").map fun v =>
        if v.truthy then v.shown else "").getD base.joint
      caseMatters := (laidDown? es "_case_sensitive").any Value.truthy
      skipsEmpty := (laidDown? es "_env_ignore_empty").any Value.truthy
      jointLimit := limit
      nullText := (laidDown? es "_env_parse_none_str").bind Value.text?
      further := furtherNames.filter fun name => (laidDown? es name).isSome }

end VariableRules

/-! ## Sections -/

/-- A section of the settings: its name, its fields, and those fields whose variables hold JSON. -/
structure EnvironmentSection where
  name : String
  fields : List String
  structured : List String
  deriving Repr, Inhabited

namespace EnvironmentSection

/-- The parts of a name between joints, of which at most so many are looked for. -/
def splitKeys (joint : List Char) : Option Nat → Nat → List Char → List Char → List String
  | _, 0, done, _ => [String.ofList done.reverse]
  | _, _ + 1, done, [] => [String.ofList done.reverse]
  | limit, fuel + 1, done, c :: cs =>
    match limit, Text.dropPrefix? joint (c :: cs) with
    | some 0, _ => [String.ofList (done.reverse ++ c :: cs)]
    | limit, some rest =>
      String.ofList done.reverse :: splitKeys joint (limit.map (· - 1)) fuel [] rest
    | limit, none => splitKeys joint limit fuel (c :: done) cs

/-- The keys that the name of a variable spells, if the variable belongs to the section. -/
def keys? (s : EnvironmentSection) (r : VariableRules) (variable_ : String) : Option (List String) :=
  if r.joint = "" then none
  else
    (Text.dropPrefix? (r.nameOf s.name ++ r.joint).toList variable_.toList).map fun rest =>
      splitKeys r.joint.toList r.jointLimit (rest.length + 1) [] rest

/-- The text of a variable with a single key is JSON. -/
def isStructured (s : EnvironmentSection) (r : VariableRules) (key : String) : Bool :=
  s.structured.any fun f => r.folded f == r.folded key || r.nameOf f == r.folded key

/-- The value has no entries. -/
def isEmptyMapping : Value → Bool
  | .map _ es => es.isEmpty
  | _ => false

/-- A value put under a path of keys. A key on the way that leads to something other than a mapping
keeps it, and what stands for nothing does not displace anything but an empty mapping. -/
def putUnder (v : Value) (isNothing : Bool) : List String → Entries → Entries
  | [], es => es
  | [key], es =>
    if isNothing && !((es.get? key).all isEmptyMapping) then es else es.put (.text key) v
  | key :: keys, es =>
    match es.get? key with
    | none => es.put (.text key) (.document (putUnder v isNothing keys []))
    | some (.map kind sub) => es.put (.text key) (.map kind (putUnder v isNothing keys sub))
    | some _ => es

/-- The text of a variable as JSON. -/
def structuredValue (text : String) : Except Failure Value :=
  match Json.read? text with
  | some v => .ok v
  | none => .error .badEnvironment

/-- The entries that single variables give. -/
def single (s : EnvironmentSection) (r : VariableRules) :
    List (String × String) → Entries → Except Failure Entries
  | [], es => .ok es
  | (name, text) :: rest, es =>
    match s.keys? r name with
    | none => s.single r rest es
    | some keys => do
      let isJson := text != "" && (keys.length == 1 && keys.all (s.isStructured r))
      let isNothing := !isJson && r.nullText == some text
      let v ←
        if isJson then structuredValue text
        else if isNothing then pure .null
        else pure (.text text)
      s.single r rest (putUnder v isNothing keys es)

/-- An entry under the name of its field, whatever the case in which its key is written. -/
def named (s : EnvironmentSection) (e : Value × Value) : Value × Value :=
  match e.1 with
  | .text key =>
    match s.fields.find? fun f => Text.lowered f == Text.lowered key with
    | some f => (.text f, e.2)
    | none => e
  | _ => e

/-- The section with the names of its fields. -/
def document (s : EnvironmentSection) (r : VariableRules) (es : Entries) : Value :=
  .document (if r.caseMatters then es else Entries.ofPairs (es.map s.named))

/-- The section that the variables give. -/
def read (s : EnvironmentSection) (r : VariableRules) (e : Environment) :
    Except Failure (Option Value) :=
  let bindings := r.bindings e
  match bindings.lookup (r.nameOf s.name) with
  | none => do
    let es ← s.single r bindings []
    .ok (if es.isEmpty then none else some (s.document r es))
  | some text =>
    if r.nullText = some text then .ok (some .null)
    else do
      match ← structuredValue text with
      | .null => .ok none
      | .map _ es =>
        match Value.overlay (.document es) (.document (← s.single r bindings [])) with
        | .map _ es => .ok (some (s.document r es))
        | v => .ok (some v)
      | v => .ok (some v)

end EnvironmentSection

namespace Settings

/-- The section of the database. -/
def databaseSection : EnvironmentSection where
  name := "mongo"
  fields := DatabaseSettings.fieldNames
  structured := []

/-- The section of logging. -/
def loggingSection : EnvironmentSection where
  name := "logging"
  fields := LogSettings.fieldNames
  structured := LogSettings.mappingNames

/-- The entries that the variables give for all sections. -/
def environmentEntries (r : VariableRules) (e : Environment) : Except Failure Entries := do
  let database ← databaseSection.read r e
  let logging ← loggingSection.read r e
  .ok ((database.map fun v => (Value.text databaseSection.name, v)).toList ++
    (logging.map fun v => (Value.text loggingSection.name, v)).toList)

end Settings

end FileDepot
