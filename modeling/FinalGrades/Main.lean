import FinalGrades.Command.Reach
import FinalGrades.Command.Run
import Std.Time.DateTime.Timestamp

/-!
The program itself: it takes in the files that a command has to do with, runs the command, and
writes out what it leaves.
-/

namespace FinalGrades

def absolute (names : List String) : String := "/" ++ "/".intercalate names

/-- What stands at a path, if anything does; a directory is empty unless all of it is asked for. -/
partial def look (all : Bool) (path : String) : IO (Option Node) := do
  let place := (← IO.currentDir) / path
  if ← place.isDir then
    let mut inside := Directory.empty
    if all then
      for entry in ← place.readDir do
        if let some node ← look all (joinPath path entry.fileName) then
          inside := inside.put entry.fileName node
    return some (.directory inside)
  if ← place.pathExists then
    return some (.file (.ofBytes (← IO.FS.readBinFile place)))
  return none

/-- Takes in everything on the way of some segments, and all that is at their end if asked for. -/
def takeIn (all : Bool) (files : FileTree) (trail : List String) : List String → IO FileTree
  | [] => do
    if !all then return files
    match ← look true (absolute trail.reverse) with
    | some node => return files.putAt trail.reverse node
    | none => return files
  | segment :: rest => do
    if segment = "." then return ← takeIn all files trail rest
    if segment = ".." then return ← takeIn all files trail.tail rest
    let names := (segment :: trail).reverse
    if (files.root.node? names).isSome then return ← takeIn all files (segment :: trail) rest
    match ← look false (absolute names) with
    | some node => takeIn all (files.putAt names node) (segment :: trail) rest
    | none => takeIn all files (segment :: trail) rest

def takePath (all : Bool) (files : FileTree) (path : String) : IO FileTree :=
  takeIn all files (files.start path) (pathSegments path)

/-- The files that a command has to do with, seen from the working directory. -/
def surroundings (environment : Environment) (command : Command) : IO FileTree := do
  let here := pathSegments (← IO.currentDir).toString
  let files ← takeIn false ⟨.empty, here⟩ [] here
  let files ← (command.files environment).foldlM (takePath false) files
  command.folders.foldlM (takePath true) files

/-- Makes the directories that a run leaves on the way of some segments. -/
def putWay (files : FileTree) (trail : List String) : List String → IO Unit
  | [] => return
  | segment :: rest => do
    if segment = "." then return ← putWay files trail rest
    if segment = ".." then return ← putWay files trail.tail rest
    let names := (segment :: trail).reverse
    if let some (.directory _) := files.root.node? names then
      IO.FS.createDirAll (absolute names)
    putWay files (segment :: trail) rest

/-- Writes the text that a run leaves at a path. -/
def putOut (files : FileTree) (path : String) : IO Unit := do
  if let .ok text := files.readText path then IO.FS.writeFile path text

def readEnvironment : IO Environment := do
  return { separator := ← IO.getEnv "GRADEBOOK_DECIMAL_SEPARATOR"
           requireComplete := ← IO.getEnv "GRADEBOOK_REQUIRE_COMPLETE"
           home := ← IO.getEnv "HOME" }

def readClock : IO Timestamp := do
  return .ofNanos (← Std.Time.Timestamp.now).toNanosecondsSinceUnixEpoch.val.toNat

end FinalGrades

open FinalGrades in
def main (words : List String) : IO UInt32 := do
  let environment ← readEnvironment
  let (before, targets) ← match Request.ofWords words with
    | .perform command => do pure (← surroundings environment command, command.targets)
    | _ => pure ({}, [])
  let run := Run.ofWords ⟨before, environment, ← readClock⟩ words
  for path in targets do
    putWay run.files (run.files.start path) (pathSegments (parentPath path))
    if (before.readText path).toOption != (run.files.readText path).toOption then
      putOut run.files path
  IO.print run.output
  IO.eprint run.complaints
  return run.code.toUInt32
