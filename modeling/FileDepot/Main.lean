import FileDepot.Command.Outcome
import FileDepot.Settings.Packaged

/-!
# The program

Reads what a command line can look at, carries the line out, and writes what has changed. The store lives
as long as the program runs.
-/

namespace FileDepot.Program

/-- Where the settings file that comes with the library stands. -/
def packagedPath : Place :=
  ["usr", "share", "filedepot", Settings.fileName]

/-- The names on the way to a place, as they stand between the slashes of its path. -/
def placeOf (path : String) : Place :=
  (FileTree.parts path).filter (· ≠ "")

/-- The directories on the way to a place. -/
def withWay (t : FileTree) (p : Place) : FileTree :=
  (List.range p.length).foldl (fun t n => t.put (p.take (n + 1)) .directory) t

/-- The paths that lead to a path, and the path itself. -/
def waysTo (path : String) : List String :=
  let parts := FileTree.parts path
  (List.range parts.length).map fun n => "/".intercalate (parts.take (n + 1))

/-- The variables in a block of definitions that zero bytes end; a definition without a name sets none. -/
def environmentOf (block : Bytes) : Environment :=
  let definitions := (Text.splitOn '\x00' ((Text.stringOfBytes? block).getD "").toList).filterMap
    (Text.cutAt? '=')
  definitions.foldl
    (fun e (name, text) => (e.set (String.ofList name) (String.ofList text)).toOption.getD e) {}

/-- What stands at a path of the file system. -/
def nodeAt? (path : String) : IO (Option FileNode) := do
  try
    return some (.file (← IO.FS.readBinFile path).toList)
  catch
    | .noFileOrDirectory .. => return none
    | .permissionDenied .. => return none
    | _ => return some .directory

/-- The tree with what stands at a path of the file system. -/
def look (t : FileTree) (path : String) : IO FileTree := do
  match t.locate path with
  | .error _ => return t
  | .ok p =>
    match ← nodeAt? path with
    | some node => return t.put p node
    | none => return t

/-- The board of a program that has just been started: its loggers are there before logging is set up. -/
def firstBoard (files : FileTree) : LogBoard :=
  let b : LogBoard := { files := files }
  [Template.teller, Session.connectionTeller].foldl LogBoard.withStanding (b.withSilent Session.settingsTeller)

/-- The desk at which a line is carried out, with the files that its words can name. -/
def prepare (line : List String) : IO Desk := do
  let here := placeOf (toString (← IO.currentDir))
  let block ← try IO.FS.readBinFile "/proc/self/environ" catch _ => pure ByteArray.empty
  let files := (withWay (withWay { here } here) packagedPath.dropLast).put packagedPath
    (.file (Text.bytesOfString Settings.packagedText))
  let session : Session :=
    { environment := environmentOf block.toList
      packaged := FileTree.pathOf packagedPath
      logging := { board := firstBoard files, world := .standard } }
  let values := line.filterMap fun word => (Text.cutAt? '=' word.toList).map fun e => String.ofList e.2
  let paths := (line ++ values ++ session.source.candidates.dropLast).flatMap waysTo
  let files ← paths.foldlM look files
  return { session := session.withFiles files }

/-- Writes the files that differ between two trees. -/
def writeBack (before after : FileTree) : IO Unit := do
  for (p, node) in after.nodes do
    if before.node? p ≠ some node then
      match node with
      | .directory => IO.FS.createDirAll (FileTree.pathOf p)
      | .file content => IO.FS.writeBinFile (FileTree.pathOf p) ⟨content.toArray⟩

/-- What is said about a line that is not carried out. -/
def usage : String :=
  "Usage: filedepot [--config PATH] [--bucket NAME] put | get | ls | rm ...\n"

/-- What is said on the error output. -/
def notice : Outcome → String
  | .misused _ => usage
  | .escaped f => f.text?.getD "" ++ "\n"
  | o => o.report

/-- Carries out one command line and gives its exit code. -/
def run (line : List String) : IO UInt32 := do
  let desk ← prepare line
  let (outcome, after) := (CommandLine.runAloud line).run desk
  writeBack desk.session.files after.session.files
  (← IO.getStdout).write ⟨outcome.printed.toArray⟩
  if outcome = .helped then IO.print usage
  IO.eprint (notice outcome)
  return outcome.exitCode.toUInt32

end FileDepot.Program

/-- Carries out the line of arguments that the program is started with. -/
def main (line : List String) : IO UInt32 :=
  FileDepot.Program.run line
