import FileDepot.Yaml.Token.Lexer

/-!
# From YAML tokens to nodes

Contents:

* `Yaml.Tag` — the kind of a node as it is named;
* `Yaml.Node` — scalars, sequences and mappings;
* `Yaml.NodeReader` — the state of parsing;
* `Yaml.node` — one node;
* `Yaml.document` — the only document of a text, if there is one.

A reference stands for a copy of the node that its anchor marks.
-/

namespace FileDepot.Yaml

/-- The kind of a node: named, or to be found from its text; `plain` tells that the text had no quotes. -/
inductive Tag
  | named (name : String)
  | implied (plain : Bool)
  deriving Repr, DecidableEq, Inhabited

/-- A node of a document. -/
inductive Node
  | scalar (tag : Tag) (text : String)
  | sequence (tag : Tag) (items : List Node)
  | mapping (tag : Tag) (entries : List (Node × Node))
  deriving Repr, Inhabited

/-- The empty node. -/
def Node.empty : Node :=
  .scalar (.implied true) ""

/-- The state of parsing: the tokens that follow, the handles of tags, the nodes that anchors mark, and
the anchors of nodes that are still open. -/
structure NodeReader where
  tokens : List Token
  handles : List (String × String) := []
  anchors : List (String × Node) := []
  openAnchors : List String := []
  deriving Repr, Inhabited

namespace NodeReader

/-- The next token. -/
def peek (p : NodeReader) : Token :=
  p.tokens.headD .streamEnd

/-- The state behind the next token. -/
def next (p : NodeReader) : NodeReader :=
  { p with tokens := p.tokens.drop 1 }

/-- The next token is one of the given ones. -/
def sees (p : NodeReader) (ts : List Token) : Bool :=
  ts.contains p.peek

/-- The anchor in front of a node, which must be a new one. -/
def anchor (p : NodeReader) : Result (Option String × NodeReader) :=
  match p.peek with
  | .anchor name =>
    if (p.anchors.lookup name).isSome || p.openAnchors.contains name then
      malformed "found duplicate anchor"
    else .ok (some name, p.next)
  | _ => .ok (none, p)

/-- The tag in front of a node. -/
def tag (p : NodeReader) : Result (Option String × NodeReader) :=
  match p.peek with
  | .tag none suffix => .ok (some suffix, p.next)
  | .tag (some handle) suffix =>
    match p.handles.lookup handle with
    | some expansion => .ok (some (expansion ++ suffix), p.next)
    | none => malformed "found undefined tag handle"
  | _ => .ok (none, p)

/-- The anchor and the tag in front of a node, in either order. -/
def properties (p : NodeReader) : Result (Option String × Option String × NodeReader) := do
  match p.peek with
  | .tag _ _ =>
    let (t, p) ← p.tag
    let (a, p) ← p.anchor
    .ok (a, t, p)
  | _ =>
    let (a, p) ← p.anchor
    let (t, p) ← p.tag
    .ok (a, t, p)

/-- The kind of a node whose tag is written or is not. -/
def kind (t : Option String) (plain : Bool) : Tag :=
  match t with
  | none => .implied plain
  | some "!" => .implied true
  | some name => .named name

/-- The state with a node marked by an anchor. -/
def mark (p : NodeReader) (anchor : Option String) (n : Node) : NodeReader :=
  match anchor with
  | some name =>
    { p with anchors := (name, n) :: p.anchors, openAnchors := p.openAnchors.filter (· != name) }
  | none => p

/-- The state with an anchor whose node is open. -/
def openMark (p : NodeReader) (anchor : Option String) : NodeReader :=
  match anchor with
  | some name => { p with openAnchors := name :: p.openAnchors }
  | none => p

end NodeReader

/-! ## Nodes -/

mutual

/-- One node. Block collections are read where `block` allows them, and a sequence without indentation
of its own where `flat` does. -/
def node (block flat : Bool) : Nat → NodeReader → Result (Node × NodeReader)
  | 0, _ => malformed "the text is nested too deep"
  | fuel + 1, p => do
    match p.peek with
    | .reference name =>
      match p.anchors.lookup name with
      | some n => .ok (n, p.next)
      | none => malformed "found undefined alias"
    | _ =>
      let (anchor, t, p) ← p.properties
      let collection (p : NodeReader) (build : Tag → Node) : Node × NodeReader :=
        let n := build (NodeReader.kind t false)
        (n, p.mark anchor n)
      let opened := p.openMark anchor
      if flat && p.sees [.blockEntry] then
        let (items, p) ← flatItems fuel opened
        .ok (collection p (.sequence · items))
      else
        match p.peek with
        | .scalar text plain =>
          let n := Node.scalar (NodeReader.kind t plain) text
          .ok (n, p.next.mark anchor n)
        | .flowSequenceStart =>
          let (items, p) ← flowItems true fuel opened.next
          .ok (collection p (.sequence · items))
        | .flowMappingStart =>
          let (entries, p) ← flowEntries true fuel opened.next
          .ok (collection p (.mapping · entries))
        | other =>
          if block && other = .blockSequenceStart then
            let (items, p) ← blockItems fuel opened.next
            .ok (collection p (.sequence · items))
          else if block && other = .blockMappingStart then
            let (entries, p) ← blockEntries fuel opened.next
            .ok (collection p (.mapping · entries))
          else if anchor.isSome || t.isSome then
            let n := Node.scalar (NodeReader.kind t true) ""
            .ok (n, p.mark anchor n)
          else malformed "expected the node content"

/-- The items of a sequence without indentation of its own. -/
def flatItems : Nat → NodeReader → Result (List Node × NodeReader)
  | 0, _ => malformed "the text is nested too deep"
  | fuel + 1, p => do
    if p.sees [.blockEntry] then
      let p := p.next
      let (n, p) ←
        if p.sees [.blockEntry, .key, .value, .blockEnd] then pure (Node.empty, p)
        else node true false fuel p
      let (rest, p) ← flatItems fuel p
      .ok (n :: rest, p)
    else .ok ([], p)

/-- The items of a block sequence. -/
def blockItems : Nat → NodeReader → Result (List Node × NodeReader)
  | 0, _ => malformed "the text is nested too deep"
  | fuel + 1, p => do
    match p.peek with
    | .blockEntry =>
      let p := p.next
      let (n, p) ←
        if p.sees [.blockEntry, .blockEnd] then pure (Node.empty, p) else node true false fuel p
      let (rest, p) ← blockItems fuel p
      .ok (n :: rest, p)
    | .blockEnd => .ok ([], p.next)
    | _ => malformed "expected the end of a block"

/-- The entries of a block mapping. -/
def blockEntries : Nat → NodeReader → Result (List (Node × Node) × NodeReader)
  | 0, _ => malformed "the text is nested too deep"
  | fuel + 1, p => do
    match p.peek with
    | .blockEnd => .ok ([], p.next)
    | .key =>
      let p := p.next
      let (k, p) ←
        if p.sees [.key, .value, .blockEnd] then pure (Node.empty, p) else node true true fuel p
      let (v, p) ← blockValue fuel p
      let (rest, p) ← blockEntries fuel p
      .ok ((k, v) :: rest, p)
    | _ => malformed "expected the end of a block"

/-- The value of an entry of a block mapping. -/
def blockValue : Nat → NodeReader → Result (Node × NodeReader)
  | 0, _ => malformed "the text is nested too deep"
  | fuel + 1, p =>
    if p.sees [.value] then
      let p := p.next
      if p.sees [.key, .value, .blockEnd] then .ok (Node.empty, p) else node true true fuel p
    else .ok (Node.empty, p)

/-- The items of a flow sequence; `first` tells that no comma is needed. An item may be a single entry
of a mapping. -/
def flowItems (first : Bool) : Nat → NodeReader → Result (List Node × NodeReader)
  | 0, _ => malformed "the text is nested too deep"
  | fuel + 1, p => do
    if p.sees [.flowSequenceEnd] then .ok ([], p.next)
    else if !first && !p.sees [.flowEntry] then malformed "expected ',' or ']'"
    else
      let p := if first then p else p.next
      if p.sees [.flowSequenceEnd] then .ok ([], p.next)
      else
        let (n, p) ←
          if p.sees [.key] then do
            let p := p.next
            let (k, p) ←
              if p.sees [.value, .flowEntry, .flowSequenceEnd] then pure (Node.empty, p)
              else node false false fuel p
            let (v, p) ← flowValue .flowSequenceEnd fuel p
            pure (Node.mapping (.implied false) [(k, v)], p)
          else node false false fuel p
        let (rest, p) ← flowItems false fuel p
        .ok (n :: rest, p)

/-- The value of an entry in a flow collection that `stop` ends. -/
def flowValue (stop : Token) : Nat → NodeReader → Result (Node × NodeReader)
  | 0, _ => malformed "the text is nested too deep"
  | fuel + 1, p =>
    if p.sees [.value] then
      let p := p.next
      if p.sees [.flowEntry, stop] then .ok (Node.empty, p) else node false false fuel p
    else .ok (Node.empty, p)

/-- The entries of a flow mapping; `first` tells that no comma is needed. -/
def flowEntries (first : Bool) : Nat → NodeReader → Result (List (Node × Node) × NodeReader)
  | 0, _ => malformed "the text is nested too deep"
  | fuel + 1, p => do
    if p.sees [.flowMappingEnd] then .ok ([], p.next)
    else if !first && !p.sees [.flowEntry] then malformed "expected a comma or a brace"
    else
      let p := if first then p else p.next
      if p.sees [.flowMappingEnd] then .ok ([], p.next)
      else
        let (k, v, p) ←
          if p.sees [.key] then do
            let p := p.next
            let (k, p) ←
              if p.sees [.value, .flowEntry, .flowMappingEnd] then pure (Node.empty, p)
              else node false false fuel p
            let (v, p) ← flowValue .flowMappingEnd fuel p
            pure (k, v, p)
          else do
            let (k, p) ← node false false fuel p
            pure (k, Node.empty, p)
        let (rest, p) ← flowEntries false fuel p
        .ok ((k, v) :: rest, p)

end

/-! ## Documents -/

/-- The directives in front of a document, into the handles of tags. -/
def directives : Nat → Bool → NodeReader → Result NodeReader
  | 0, _, p => .ok p
  | fuel + 1, versioned, p =>
    match p.peek with
    | .directive (.version major _) =>
      if versioned then malformed "found duplicate YAML directive"
      else if major != 1 then malformed "found incompatible YAML document"
      else directives fuel true p.next
    | .directive (.handle name expansion) =>
      if (p.handles.lookup name).isSome then malformed "duplicate tag handle"
      else directives fuel versioned { p.next with handles := (name, expansion) :: p.handles }
    | .directive .unknown => directives fuel versioned p.next
    | _ => .ok p

/-- The handles that every document knows, unless it defines them itself. -/
def standardHandles : List (String × String) :=
  [("!", "!"), ("!!", "tag:yaml.org,2002:")]

/-- The state behind the ends of documents. -/
def skipDocumentEnds (p : NodeReader) : NodeReader :=
  { p with tokens := p.tokens.dropWhile (· == .documentEnd) }

/-- The node of a document, behind its directives. -/
def content (p : NodeReader) : Result (Node × NodeReader) := do
  let p := { p with handles := p.handles ++ standardHandles }
  let (n, p) ← node true false (p.tokens.length * 2 + 2) p
  .ok (n, if p.sees [.documentEnd] then p.next else p)

/-- The only document of a stream of tokens, if there is one. -/
def document (ts : List Token) : Result (Option Node) := do
  let p : NodeReader := { tokens := ts }
  let explicit :=
    match p.peek with
    | .directive _ => true
    | .documentStart => true
    | _ => false
  if p.sees [.streamEnd] then .ok none
  else
    let p ← if explicit then directives p.tokens.length false p else pure p
    if explicit && !p.sees [.documentStart] then malformed "expected the start of a document"
    else
      let p := if explicit then p.next else p
      let isEmpty := explicit &&
        match p.peek with
        | .directive _ | .documentStart | .documentEnd | .streamEnd => true
        | _ => false
      let (n, p) ← if isEmpty then pure (Node.empty, p) else content p
      if (skipDocumentEnds p).sees [.streamEnd] then .ok (some n)
      else malformed "expected a single document"

end FileDepot.Yaml
