import FileDepot.Value.Compare
import FileDepot.Yaml.Quantity

/-!
# From YAML nodes to values

Contents:

* `Yaml.Layered` — an answer about a part of a document, with the layer of what is wrong with it;
* `Yaml.meaning` — the value of a node, with merged mappings taken in;
* `Yaml.read` — the value of a text.

Of several faults, the one in the uppermost layer is reported, and within a layer the first.
-/

namespace FileDepot.Yaml

/-! ## Layers -/

/-- An answer; what is wrong stands so many collections below. -/
abbrev Layered (α : Type) := Except (Nat × Error) α

namespace Layered

/-- An answer in the layer itself. -/
def here {α : Type} (r : Result α) : Layered α :=
  r.mapError fun e => (0, e)

/-- An answer in the next layer. -/
def below {α : Type} (r : Layered α) : Layered α :=
  r.mapError fun (n, e) => (n + 1, e)

/-- A collection that cannot have its tag, which is found out when its parts are looked at. -/
def misnamed {α : Type} : Layered α :=
  .error (1, .malformed "a collection of another kind is expected")

/-- Both answers, or the fault of the upper layer. -/
def both {α β : Type} (a : Layered α) (b : Layered β) : Layered (α × β) :=
  match a, b with
  | .ok x, .ok y => .ok (x, y)
  | .error f, .ok _ => .error f
  | .ok _, .error f => .error f
  | .error f, .error g => if g.1 < f.1 then .error g else .error f

/-- The answers of a list, or the first fault of the uppermost layer. -/
def all {α : Type} : List (Layered α) → Layered (List α)
  | [] => .ok []
  | r :: rs => (both r (all rs)).map fun (x, xs) => x :: xs

end Layered

/-! ## Keys -/

/-- The node is the key that merges mappings. -/
def isMergeKey : Node → Bool
  | .scalar tag text => tag.scalarKind text == .merge
  | _ => false

/-- The node is the key of a default value. -/
def isDefaultKey : Node → Bool
  | .scalar tag text => tag.scalarKind text == .default
  | _ => false

/-- A key, which must be one that mappings can have; a collection is none, whatever is in it. -/
def checkedKey (key : Layered Value) : Layered Value :=
  let refused : Layered Value := .here (malformed "found unhashable key")
  match key with
  | .ok v => if v.hashable then .ok v else refused
  | .error (0, e) => .error (0, e)
  | .error (_ + 1, _) => refused

/-! ## Merging -/

mutual

/-- Everything that the entries merge is a mapping or a list of mappings. -/
def mergesMappings : List (Node × Node) → Bool
  | [] => true
  | (k, n) :: es => (!isMergeKey k || isMergeable n) && mergesMappings es
termination_by structural es => es

/-- The node can be merged. -/
def isMergeable : Node → Bool
  | .mapping _ es => mergesMappings es
  | .sequence _ ns => areMappings ns
  | .scalar _ _ => false
termination_by structural n => n

/-- The nodes are mappings that merge mappings. -/
def areMappings : List Node → Bool
  | [] => true
  | .mapping _ es :: ns => mergesMappings es && areMappings ns
  | _ :: _ => false
termination_by structural ns => ns

end

/-! ## Scalars -/

mutual

/-- The text of a scalar, or of the default entry of a mapping. -/
def writtenText? : Node → Option String
  | .scalar _ text => some text
  | .sequence _ _ => none
  | .mapping _ es => defaultText? es
termination_by structural n => n

/-- The text of the first default entry. -/
def defaultText? : List (Node × Node) → Option String
  | [] => none
  | (k, n) :: es => if isDefaultKey k then writtenText? n else defaultText? es
termination_by structural es => es

end

/-- The value that a mapping has as a scalar: that of the text of its default entry. A time is not read
so. -/
def defaultValue (kind : Kind) (entries : List (Node × Node)) : Result Value :=
  match kind, defaultText? entries with
  | .timestamp, some _ => impossible .wrongKind
  | kind, some text => scalarValue kind text
  | .merge, none | .default, none | .other, none => malformed "the tag names no value"
  | _, none => malformed "expected a scalar"

/-! ## Values -/

mutual

/-- The value of a node. -/
def meaning : Node → Layered Value
  | .scalar tag text =>
    match tag.scalarKind text with
    | .sequence | .mapping | .set | .pairs => .misnamed
    | kind => .here (scalarValue kind text)
  | .sequence tag items =>
    match tag.sequenceKind with
    | .sequence => .below ((Layered.all (meanings items)).map .list)
    | .pairs => .below ((Layered.all (onlyEntries items)).map .list)
    | .mapping | .set => .misnamed
    | _ => .here (malformed "expected a scalar")
  | .mapping tag entries =>
    let all : Layered (List (Value × Value)) :=
      if mergesMappings entries then
        let (merged, own) := meaningEntries entries
        Layered.all (merged ++ own)
      else .here (malformed "expected a mapping or list of mappings for merging")
    match tag.mappingKind with
    | .mapping => .below (all.map fun es => .document (Entries.ofPairs es))
    | .set => .below (all.map fun es => Value.setOf false (es.map (·.1)))
    | .sequence | .pairs => .misnamed
    | kind => .here (defaultValue kind entries)
termination_by structural n => n

/-- The values of nodes. -/
def meanings : List Node → List (Layered Value)
  | [] => []
  | n :: ns => meaning n :: meanings ns
termination_by structural ns => ns

/-- The only entries of mappings, as pairs. -/
def onlyEntries : List Node → List (Layered Value)
  | [] => []
  | .mapping _ es :: ns => onlyEntry es :: onlyEntries ns
  | _ :: ns => .here (malformed "expected a mapping of length 1") :: onlyEntries ns
termination_by structural ns => ns

/-- The only entry of a mapping, as a pair. -/
def onlyEntry : List (Node × Node) → Layered Value
  | (k, n) :: es =>
    if es.isEmpty then (Layered.both (meaning k) (meaning n)).map fun (v, w) => .tuple [v, w]
    else .here (malformed "expected a mapping of length 1")
  | [] => .here (malformed "expected a mapping of length 1")
termination_by structural es => es

/-- The entries that a mapping merges, and its own. -/
def meaningEntries : List (Node × Node) → List (Layered (Value × Value)) × List (Layered (Value × Value))
  | [] => ([], [])
  | (k, n) :: es =>
    let (merged, own) := meaningEntries es
    if isMergeKey k then (mergedEntries n ++ merged, own)
    else
      let key := if isDefaultKey k then .ok (.text "=") else checkedKey (meaning k)
      (merged, Layered.both key (meaning n) :: own)
termination_by structural es => es

/-- The entries of a mapping that is merged, or of several, the first of which outweighs the others. -/
def mergedEntries : Node → List (Layered (Value × Value))
  | .mapping _ es =>
    let (merged, own) := meaningEntries es
    merged ++ own
  | .sequence _ ns => mergedLists ns
  | .scalar _ _ => []
termination_by structural n => n

/-- The entries of several mappings, those of the first one last. -/
def mergedLists : List Node → List (Layered (Value × Value))
  | [] => []
  | .mapping _ es :: ns =>
    let (merged, own) := meaningEntries es
    mergedLists ns ++ merged ++ own
  | _ :: ns => mergedLists ns
termination_by structural ns => ns

end

/-! ## Texts -/

/-- The character may stand in a text. -/
def isAllowed (c : Char) : Bool :=
  let n := c.toNat
  n == 9 || n == 10 || n == 13 || (32 ≤ n && n ≤ 126) || n == 0x85 || (0xa0 ≤ n && n ≤ 0xd7ff) ||
    (0xe000 ≤ n && n ≤ 0xfffd) || 0x10000 ≤ n

/-- The value of a text; a text without a document has none. -/
def read (text : List Char) : Result Value := do
  if !text.all isAllowed then malformed "special characters are not allowed"
  else
    match ← document (← tokens text) with
    | some n => (meaning n).mapError (·.2)
    | none => .ok .null

end FileDepot.Yaml
