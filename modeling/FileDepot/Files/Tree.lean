import FileDepot.Failure
import FileDepot.Text.Digits
import FileDepot.Text.Pieces
import FileDepot.Text.Quoted

/-!
# File trees

Files and directories, seen from a working directory.

Contents:

* `Place`, `FileNode`, `FileTree` — the tree;
* `FileTree.straightPath` — a path from the root, without detours;
* `FileTree.pathFault?` — what keeps a text from being a path;
* `FileTree.walk` — the place that a path leads to;
* `FileTree.isFile`, `FileTree.read` — what is there;
* `FileTree.write`, `FileTree.touch`, `FileTree.makeDirectories` — changes.
-/

namespace FileDepot

/-- A place in a tree: the names on the way from its root. -/
abbrev Place := List String

/-- What stands at a place. -/
inductive FileNode
  | file (content : Bytes)
  | directory
  deriving Repr, DecidableEq, Inhabited

/-- A tree of files with the directory from which paths start. The root needs no entry. -/
structure FileTree where
  nodes : List (Place × FileNode) := []
  here : Place := []
  deriving Repr, Inhabited

namespace FileTree

/-- What stands at a place. -/
def node? (t : FileTree) (p : Place) : Option FileNode :=
  if p.isEmpty then some .directory else t.nodes.lookup p

/-- The tree with another node at a place, behind the others if the place was free. -/
def put (t : FileTree) (p : Place) (n : FileNode) : FileTree :=
  if t.nodes.any fun e => e.1 == p then
    { t with nodes := t.nodes.map fun e => if e.1 == p then (p, n) else e }
  else { t with nodes := t.nodes ++ [(p, n)] }

theorem lookup_replaced {p : Place} (n : FileNode) {es : List (Place × FileNode)}
    (h : (es.any fun e => e.1 == p) = true) :
    (es.map fun e => if e.1 == p then (p, n) else e).lookup p = some n := by
  induction es with
  | nil => simp at h
  | cons e es ih =>
    rw [List.map_cons]
    by_cases he : e.1 = p
    · simp [he]
    · have hkey : (e.1 == p) = false := by simpa using he
      have hne : (p == e.1) = false := by simpa using Ne.symm he
      rw [if_neg (by simp [hkey])]
      rw [List.any_cons, hkey, Bool.false_or] at h
      rw [List.lookup_cons, hne]
      exact ih h

theorem lookup_appended {p : Place} (n : FileNode) {es : List (Place × FileNode)}
    (h : (es.any fun e => e.1 == p) = false) : (es ++ [(p, n)]).lookup p = some n := by
  induction es with
  | nil => simp
  | cons e es ih =>
    rw [List.any_cons, Bool.or_eq_false_iff] at h
    have hne : (p == e.1) = false := by simpa using Ne.symm (by simpa using h.1 : e.1 ≠ p)
    rw [List.cons_append, List.lookup_cons, hne]
    exact ih h.2

/-- What is put at a place stands there; only the root cannot change. -/
theorem node?_put (t : FileTree) {p : Place} (n : FileNode) (h : p ≠ []) :
    (t.put p n).node? p = some n := by
  have hp : p.isEmpty = false := by simpa using h
  rw [node?, hp, put]
  cases hany : t.nodes.any fun e => e.1 == p with
  | true => exact lookup_replaced n hany
  | false => exact lookup_appended n hany

/-! ## Paths -/

/-- The parts of a path between its slashes. -/
def parts (path : String) : List String :=
  (Text.splitOn '/' path.toList).map String.ofList

/-- The path starts at the root. -/
def isAbsolute (path : String) : Bool :=
  path.toList.head? == some '/'

/-- The path of a place from the root. -/
def pathOf (p : Place) : String :=
  p.foldl (fun s name => s ++ "/" ++ name) ""

/-- The part of a path behind its last slash. -/
def baseName (path : String) : String :=
  (parts path).getLastD ""

/-- The part of a path in front of its last slash, without the slashes at its end; a path of slashes
alone keeps them. -/
def parentPath (path : String) : String :=
  let head := (Text.splitOn '/' path.toList).dropLast
  let cs := Text.joinWith '/' head ++ (if head.isEmpty then [] else ['/'])
  if cs.all (· == '/') then String.ofList cs
  else String.ofList (cs.reverse.dropWhile (· == '/')).reverse

/-- The names on the way to a path, seen from a directory: dots and empty names stay, and two dots go back,
whatever stands there. -/
def namesFrom (here : Place) (path : String) : Place :=
  (parts path).foldl
    (fun p name => if name = "" || name = "." then p else if name = ".." then p.dropLast else p ++ [name])
    (if isAbsolute path then [] else here)

/-- The path from the root without dots and empty names. -/
def straightPath (t : FileTree) (path : String) : String :=
  let p := namesFrom t.here path
  if p.isEmpty then "/" else pathOf p

/-- What keeps a text from being a path: a null ends every path. -/
def pathFault? (path : String) : Option Failure :=
  if path.toList.contains '\x00' then some (.invalid "embedded null byte") else none

/-- The greatest number of bytes of a name. -/
def nameLimit : Nat := 255

/-- The number of bytes that a path does not reach. -/
def pathLimit : Nat := 4096

/-- Why a path leads nowhere. -/
inductive Obstacle
  | missing
  | notDirectory
  | tooLong
  deriving Repr, DecidableEq

/-- The place that is reached from a place by names: every place that is left must be a directory. A dot
stays and two dots go back. -/
def walk (t : FileTree) : Place → List String → Except Obstacle Place
  | p, [] => .ok p
  | p, name :: names =>
    match t.node? p with
    | none => .error .missing
    | some (.file _) => .error .notDirectory
    | some .directory =>
      if name = "" || name = "." then t.walk p names
      else if name = ".." then t.walk p.dropLast names
      else if nameLimit < name.utf8ByteSize then .error .tooLong
      else t.walk (p ++ [name]) names

/-- The place that a path leads to; nothing need stand there. -/
def locate (t : FileTree) (path : String) : Except Obstacle Place :=
  if path = "" then .error .missing
  else if pathLimit ≤ path.utf8ByteSize then .error .tooLong
  else t.walk (if isAbsolute path then [] else t.here) (parts path)

/-- How a failure at a path is reported. -/
def failureAt (path : String) : Obstacle → Failure
  | .missing => .missingPath (Text.quoted path)
  | .notDirectory => .notDirectory (Text.quoted path)
  | .tooLong => .nameTooLong (Text.quoted path)

/-! ## Looking -/

/-- What stands where a path leads to. -/
def find? (t : FileTree) (path : String) : Option FileNode :=
  match t.locate path with
  | .ok p => t.node? p
  | .error _ => none

/-- A file stands where the path leads to. -/
def isFile (t : FileTree) (path : String) : Bool :=
  match t.find? path with
  | some (.file _) => true
  | _ => false

/-- A directory stands where the path leads to. -/
def isDirectory (t : FileTree) (path : String) : Bool :=
  match t.find? path with
  | some .directory => true
  | _ => false

/-- The content of a file. -/
def read (t : FileTree) (path : String) : Except Failure Bytes :=
  match pathFault? path, t.locate path with
  | some f, _ => .error f
  | none, .error o => .error (failureAt path o)
  | none, .ok p =>
    match t.node? p with
    | some (.file content) => .ok content
    | some .directory => .error (.isDirectory (Text.quoted path))
    | none => .error (.missingPath (Text.quoted path))

/-! ## Changing -/

/-- The place at which a file may be written. -/
def writable (t : FileTree) (path : String) : Except Failure Place :=
  match pathFault? path, t.locate path with
  | some f, _ => .error f
  | none, .error o =>
    if o = .missing && path != "" && baseName path = "" then
      match t.locate (parentPath path) with
      | .ok _ => .error (.isDirectory (Text.quoted path))
      | .error o => .error (failureAt path o)
    else .error (failureAt path o)
  | none, .ok p =>
    match t.node? p with
    | some .directory => .error (.isDirectory (Text.quoted path))
    | some (.file _) => .ok p
    | none => if baseName path = "" then .error (.isDirectory (Text.quoted path)) else .ok p

/-- The tree with a file of the given content where the path leads to. -/
def write (t : FileTree) (path : String) (content : Bytes) : Except Failure FileTree :=
  (t.writable path).map fun p => t.put p (.file content)

/-- The tree with a file where the path leads to; a file that is there already stays as it is. -/
def touch (t : FileTree) (path : String) : Except Failure FileTree :=
  (t.writable path).map fun p =>
    match t.node? p with
    | some _ => t
    | none => t.put p (.file [])

/-- The tree with all directories on the way from a place by names. -/
def makeAll (shown : String) : FileTree → Place → List String → Except Failure FileTree
  | t, p, [] =>
    match t.node? p with
    | some (.file _) => .error (.pathTaken shown)
    | _ => .ok t
  | t, p, name :: names =>
    match t.node? p with
    | some (.file _) => .error (.notDirectory shown)
    | _ =>
      let next :=
        if name = "" || name = "." then p
        else if name = ".." then p.dropLast
        else p ++ [name]
      match t.node? next with
      | none =>
        match pathFault? name with
        | some f => .error f
        | none =>
          if nameLimit < name.utf8ByteSize then .error (.nameTooLong shown)
          else makeAll shown (t.put next .directory) next names
      | some _ => makeAll shown t next names

/-- The tree with a directory where the path leads to, and with all directories on the way. -/
def makeDirectories (t : FileTree) (path : String) : Except Failure FileTree :=
  makeAll (Text.quoted path) t (if isAbsolute path then [] else t.here) (parts path)

/-- The tree with a file at a path from the working directory, and with the directories on the way. -/
def plant (t : FileTree) (path : String) (content : Bytes) : Except Failure FileTree := do
  let t ← if parentPath path = "" then pure t else t.makeDirectories (parentPath path)
  t.write path content

end FileTree

end FileDepot
