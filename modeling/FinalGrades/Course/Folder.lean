import FinalGrades.Course.Document
import FinalGrades.Event

/-!
The course files of a directory and of all directories in it, in the order of their names.
-/

namespace FinalGrades

/-- The part of a file's name after its last point, unless nothing stands before that point. -/
def fileExtension? (name : String) : Option String :=
  let reversed := name.toList.reverse
  match reversed.dropWhile (· != '.') with
  | [] | [_] => none
  | _ => some (String.ofList (reversed.takeWhile (· != '.')).reverse)

mutual

/-- The text of every TOML file below a node at a path, or why there is none. -/
def Node.tomlFiles (path : String) (name : String) :
    Node → List (String × Except FileError String)
  | .directory entries =>
    match checkPath path with
    | .ok () => entries.tomlFiles path
    | .error error => if fileExtension? name = some "toml" then [(path, .error error)] else []
  | .file content =>
    if fileExtension? name = some "toml" then
      [(path, match checkPath path, content with
        | .error error, _ => .error error
        | .ok (), .text value => .ok value
        | .ok (), .binary _ => .error .notText)]
    else []

def Directory.tomlFiles (path : String) : Directory → List (String × Except FileError String)
  | .empty => []
  | .entry name node rest => node.tomlFiles (joinPath path name) name ++ rest.tomlFiles path

end

namespace Course

/-- Every course file below a directory, with its course or the reason to skip it. -/
def readFolder (files : FileTree) (path : String) :
    Except CourseError (List (String × Except CourseError Course)) :=
  match files.directory? path with
  | none => .error (.notDirectory path)
  | some folder => .ok ((folder.tomlFiles path).map fun (file, text) => (file, ofContent file text))

/-- The courses of a folder without the files that have none. -/
def loadFolder (files : FileTree) (path : String) : Except CourseError (List Course) := do
  return (← readFolder files path).filterMap fun (_, result) => result.toOption

/-- A warning for each file that is skipped. -/
def folderEvents (files : FileTree) (path : String) : List Event :=
  match readFolder files path with
  | .error _ => []
  | .ok results => results.filterMap fun (file, result) =>
    match result with
    | .ok _ => none
    | .error error => some ⟨.warn, s!"skipping {file}: {error.message}"⟩

end Course

end FinalGrades
