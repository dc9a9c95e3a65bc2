import FileDepot.Value.Access

/-!
# Filters on records

Contents:

* `Value.at` — the value under a dotted path;
* `Value.contains` — membership in a list, a set, a mapping, a text or bytes;
* `Condition.accepts` is the test of one value, `Filter.accepts` that of a whole record.

A test may fail: an expression is read, and the kinds of operands are looked at, only when a record is
tested. The engine answers for patterns in syntax that is not read.
-/

namespace FileDepot

/-! ## Parts of a record -/

/-- The value under a path of keys; a missing one is null. -/
def Value.at (v : Value) : List String → Value
  | [] => v
  | key :: keys =>
    match v with
    | .map kind es =>
      if kind == .view then .null
      else
        match Entries.get? key es with
        | some w => w.at keys
        | none => .null
    | _ => .null

/-- The keys of a path that is written with dots. -/
def pathKeys (path : String) : List String :=
  (Text.splitOn '.' path.toList).map String.ofList

/-- The second list occurs in the first without a gap. -/
def occursIn {α : Type} [BEq α] (whole part : List α) : Bool :=
  match whole with
  | [] => part.isEmpty
  | x :: rest => part.isPrefixOf (x :: rest) || occursIn rest part

namespace Value

/-- The value equals one of the given ones, which are looked at in turn. -/
def isAmong (v : Value) : List Value → Except Failure Bool
  | [] => .ok false
  | w :: ws => do if ← w.equals v then .ok true else v.isAmong ws

/-- The item is a member of the value. -/
def contains (container item : Value) : Except Failure Bool :=
  match container with
  | .list vs => item.isAmong vs
  | .tuple vs => item.isAmong vs
  | .namedTuple fs => item.isAmong (fs.map (·.2))
  | .model fs => item.isAmong (((Value.model fs).elements?).getD [])
  | .foreign (.buffer "bytearray" bs) => bytesContain bs item
  | .foreign f => do item.isAmong (← (Value.foreign f).elements)
  | .set _ vs =>
    match item with
    | .set _ _ => .ok (item.among vs)
    | _ => if item.hashable then .ok (item.among vs) else .error .wrongKind
  | .map _ es => if item.hashable then .ok (item.among (es.map (·.1))) else .error .wrongKind
  | .text s => textContains s item
  | .textMember s => textContains s item
  | .bytes bs => bytesContain bs item
  | .binary bs _ => bytesContain bs item
  | _ => .error .wrongKind
where
  textContains (s : String) (item : Value) : Except Failure Bool :=
    match item.text? with
    | some t => .ok (occursIn s.toList t.toList)
    | none => .error .wrongKind
  bytesContain (bs : Bytes) (item : Value) : Except Failure Bool :=
    match item, item.whole? with
    | .bytes part, _ => .ok (occursIn bs part)
    | .binary part _, _ => .ok (occursIn bs part)
    | .foreign (.buffer _ part), _ => .ok (occursIn bs part)
    | _, some n =>
      if 0 ≤ n && n < 256 then .ok (bs.contains (UInt8.ofNat n.toNat))
      else .error (.invalid "byte must be in range(0, 256)")
    | _, none => .error .wrongKind

/-- The source that a value spells, if it is a text or bytes. -/
def patternSource? : Value → Option PatternSource
  | .text s => some (.text s)
  | .textMember s => some (.text s)
  | .bytes bs => some (.bytes bs)
  | .binary bs _ => some (.bytes bs)
  | _ => none

end Value

/-! ## Conditions -/

namespace Filter

/-- An answer of a pattern as an answer of a filter. -/
def patternAnswer : Except Pattern.Refusal Bool → Except Failure Bool
  | .ok b => .ok b
  | .error (.unreadable e written) => .error (.badExpression (e.message written))
  | .error (.flags reason) => .error (.invalid reason)
  | .error .wrongKind => .error .wrongKind
  | .error (.unanswered failure) => .error failure

section

variable (engine : Engine)

/-- A stored pattern matches somewhere in a text. -/
def storedSearches (r : StoredRegex) (text : String) : Except Failure Bool :=
  patternAnswer (r.searches engine text)

/-- The operand of a pattern operator matches somewhere in the value. Only texts match; the options
count only where the operand is a text. -/
def regexAccepts (operand options value : Value) : Except Failure Bool :=
  match value.text? with
  | none => .ok false
  | some text =>
    match operand with
    | .storedRegex r => storedSearches engine r text
    | .pattern p => patternAnswer (p.searches engine text)
    | v => do
      let ignoreCase ← options.contains (.text "i")
      match v.patternSource? with
      | some source =>
        let flags := if ignoreCase then Pattern.ignoreCaseFlag else 0
        patternAnswer (StoredRegex.searches engine ⟨source, flags⟩ text)
      | none => .error .wrongKind

/-- The value satisfies one operator; `options` are those of a pattern operator next to it. -/
def operatorAccepts (options value : Value) (name : String) (operand : Value) :
    Except Failure Bool :=
  match name with
  | "$regex" => regexAccepts engine operand options value
  | "$options" => .ok true
  | "$in" => operand.contains value
  | "$ne" => (value.equals operand).map (!·)
  | "$exists" => (Value.bool (!value.isNull)).equals operand
  | name => .error (.unknownOperator name)

/-- The value satisfies every operator of a list, tried in turn. -/
def operatorsAccept (options value : Value) : List (Value × Value) → Except Failure Bool
  | [] => .ok true
  | (k, operand) :: es => do
    if ← operatorAccepts engine options value (k.text?.getD "") operand then
      operatorsAccept options value es
    else .ok false

/-- The keys of the mapping are all operators, and there is one. -/
def isOperatorDocument (es : Entries) : Except Failure Bool :=
  if es.isEmpty then .ok false else startWithDollar es
where
  startWithDollar : Entries → Except Failure Bool
    | [] => .ok true
    | (k, _) :: es =>
      match k.text? with
      | some s => if s.toList.head? == some '$' then startWithDollar es else .ok false
      | none => .error .lacksOperation

/-- The value satisfies a condition: a pattern, operators, or a value that it equals. -/
def conditionAccepts (value condition : Value) : Except Failure Bool :=
  match condition with
  | .storedRegex r =>
    match value.text? with
    | some text => storedSearches engine r text
    | none => .ok false
  | .pattern p =>
    match value.text? with
    | some text => patternAnswer (p.searches engine text)
    | none => .ok false
  | .map kind es => do
    if kind == .view then value.equals condition
    else if ← isOperatorDocument es then
      operatorsAccept engine ((Entries.get? "$options" es).getD (.text "")) value es
    else value.equals condition
  | _ => value.equals condition

/-- The value of the field that a key names. -/
def fieldOf (record key : Value) : Except Failure Value :=
  match key.text? with
  | some path => .ok (record.at (pathKeys path))
  | none =>
    match key with
    | .bytes _ => .error .wrongKind
    | .binary _ _ => .error .wrongKind
    | _ => .error .lacksOperation

/-! ## Filters -/

mutual

/-- The record satisfies every entry of a filter, tried in turn. -/
def accepts (record : Value) : List (Value × Value) → Except Failure Bool
  | [] => .ok true
  | (k, condition) :: es => do
    let answer ←
      if k.text? == some "$or" then anyAccepts record condition
      else if k.text? == some "$and" then allAccept record condition
      else do conditionAccepts engine (← fieldOf record k) condition
    if answer then accepts record es else .ok false
termination_by structural es => es

/-- The record satisfies one of the filters that a value lists. -/
def anyAccepts (record : Value) : Value → Except Failure Bool
  | .list vs => anyOf record vs
  | _ => .error .wrongKind
termination_by structural v => v

/-- The record satisfies all of the filters that a value lists. -/
def allAccept (record : Value) : Value → Except Failure Bool
  | .list vs => allOf record vs
  | _ => .error .wrongKind
termination_by structural v => v

/-- The record satisfies one of the filters. -/
def anyOf (record : Value) : List Value → Except Failure Bool
  | [] => .ok false
  | v :: vs => do if ← acceptsValue record v then .ok true else anyOf record vs
termination_by structural vs => vs

/-- The record satisfies all of the filters. -/
def allOf (record : Value) : List Value → Except Failure Bool
  | [] => .ok true
  | v :: vs => do if ← acceptsValue record v then allOf record vs else .ok false
termination_by structural vs => vs

/-- The record satisfies a filter. -/
def acceptsValue (record : Value) : Value → Except Failure Bool
  | .map _ es => accepts record es
  | _ => .error .lacksOperation
termination_by structural v => v

end

/-- The records that a filter accepts, in their order; the first failing test fails. -/
def select {α : Type} (record : α → Value) (filter : Entries) : List α → Except Failure (List α)
  | [] => .ok []
  | x :: xs => do
    let answer ← accepts engine (record x) filter
    let rest ← select record filter xs
    .ok (if answer then x :: rest else rest)

end

end Filter

end FileDepot
