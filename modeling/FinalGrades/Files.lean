/-!
A tree of files, and what can be done with the paths in it. Directories keep their entries in the
order of their names; a path that does not begin with a slash starts at the working directory.
-/

namespace FinalGrades

/-- Why a file or directory cannot be used. -/
inductive FileError where
  | notFound
  | alreadyExists
  | notDirectory
  | isDirectory
  | nameTooLong
  | nulInName
  | notText
deriving DecidableEq

namespace FileError

def message : FileError → String
  | .notFound => "No such file or directory (os error 2)"
  | .alreadyExists => "File exists (os error 17)"
  | .notDirectory => "Not a directory (os error 20)"
  | .isDirectory => "Is a directory (os error 21)"
  | .nameTooLong => "File name too long (os error 36)"
  | .nulInName => "file name contained an unexpected NUL byte"
  | .notText => "stream did not contain valid UTF-8"

end FileError

/-- The bytes of a file, as text where they are valid UTF-8. -/
inductive Content where
  | text (value : String)
  | binary (bytes : List UInt8)
deriving DecidableEq

namespace Content

def ofBytes (bytes : ByteArray) : Content :=
  match String.fromUTF8? bytes with
  | some value => .text value
  | none => .binary bytes.toList

end Content

mutual

inductive Node where
  | file (content : Content)
  | directory (entries : Directory)
deriving DecidableEq

inductive Directory where
  | empty
  | entry (name : String) (node : Node) (rest : Directory)
deriving DecidableEq

end

namespace Directory

def find? (name : String) : Directory → Option Node
  | .empty => none
  | .entry other node rest => if other = name then some node else rest.find? name

/-- Puts a node under a name, at its place in the order. -/
def put (name : String) (node : Node) : Directory → Directory
  | .empty => .entry name node .empty
  | .entry other old rest =>
    if name < other then .entry name node (.entry other old rest)
    else if name = other then .entry name node rest
    else .entry other old (rest.put name node)

/-- The node at the end of a path of names. -/
def node? (root : Directory) : List String → Option Node
  | [] => some (.directory root)
  | [name] => root.find? name
  | name :: path =>
    match root.find? name with
    | some (.directory inside) => inside.node? path
    | _ => none

/-- Puts a node at the end of a path whose directories exist. -/
def putAt (root : Directory) (node : Node) : List String → Directory
  | [] => root
  | [name] => root.put name node
  | name :: path =>
    match root.find? name with
    | some (.directory inside) => root.put name (.directory (inside.putAt node path))
    | _ => root

end Directory

/-- The parts of a path between its slashes. -/
def pathSegments (path : String) : List String :=
  (path.toList.splitOn '/').filterMap fun part =>
    if part.isEmpty then none else some (String.ofList part)

def isAbsolute (path : String) : Bool := path.toList.head? = some '/'

def endsInSlash (path : String) : Bool := path.toList.getLast? = some '/'

/-- A path with one more part; an absolute part stands alone. -/
def joinPath (path name : String) : String :=
  if isAbsolute name then name
  else if path.isEmpty || endsInSlash path then path ++ name
  else path ++ "/" ++ name

/-- The most bytes of a name, which no file has more of. -/
def nameLimit : Nat := 255

/-- The most bytes of a path that can be looked up. -/
def pathLimit : Nat := 4095

/-- Refuses a path that cannot be looked up, whatever files there are. -/
def checkPath (path : String) : Except FileError Unit :=
  if path.toList.contains '\x00' then .error .nulInName
  else if path.isEmpty then .error .notFound
  else if pathLimit < path.utf8ByteSize then .error .nameTooLong
  else .ok ()

/-- A path without its last name, and without the slashes and dots on both sides of that name. -/
def parentPath (path : String) : String :=
  let idle (part : List Char) : Bool := part.isEmpty || part = ['.']
  let above := ((path.toList.splitOn '/').reverse.dropWhile idle).drop 1
  String.ofList (['/'].intercalate (above.dropWhile idle).reverse)

/-- All files, and the names that lead to the working directory. -/
structure FileTree where
  root : Directory := .empty
  here : List String := []
deriving DecidableEq

namespace FileTree

/-- The names, last first, of the directory where a path starts. -/
def start (files : FileTree) (path : String) : List String :=
  if isAbsolute path then [] else files.here.reverse

/-- The names that segments lead to, from a directory whose names are given last first. -/
def locate (files : FileTree) (trail : List String) :
    List String → Except FileError (List String)
  | [] => .ok trail.reverse
  | segment :: rest =>
    match files.root.node? trail.reverse with
    | some (.directory inside) =>
      if segment = "." then locate files trail rest
      else if segment = ".." then locate files trail.tail rest
      else if nameLimit < segment.utf8ByteSize then .error .nameTooLong
      else if (inside.find? segment).isSome then locate files (segment :: trail) rest
      else .error .notFound
    | some (.file _) => .error .notDirectory
    | none => .error .notFound

/-- The node that a path names; with a slash at its end it must be a directory. -/
def find (files : FileTree) (path : String) : Except FileError Node := do
  checkPath path
  let segments := pathSegments path
  let names ← files.locate (files.start path)
    (if endsInSlash path then segments ++ ["."] else segments)
  match files.root.node? names with
  | some node => return node
  | none => throw .notFound

def exists? (files : FileTree) (path : String) : Bool := (files.find path).isOk

def directory? (files : FileTree) (path : String) : Option Directory :=
  match files.find path with
  | .ok (.directory inside) => some inside
  | _ => none

def readText (files : FileTree) (path : String) : Except FileError String := do
  match ← files.find path with
  | .file (.text value) => return value
  | .file (.binary _) => throw .notText
  | .directory _ => throw .isDirectory

/-- Puts a node at the end of a path of names from the root. -/
def putAt (files : FileTree) (names : List String) (node : Node) : FileTree :=
  { files with root := files.root.putAt node names }

/-- Writes a file, over an earlier one; its directory must exist. -/
def writeText (files : FileTree) (path : String) (value : String) : Except FileError FileTree := do
  checkPath path
  let segments := pathSegments path
  match segments.getLast? with
  | none => throw .isDirectory
  | some last =>
    let names ← files.locate (files.start path) segments.dropLast
    match files.root.node? names with
    | some (.directory inside) =>
      if last = "." || last = ".." || endsInSlash path then throw .isDirectory
      if nameLimit < last.utf8ByteSize then throw .nameTooLong
      if let some (.directory _) := inside.find? last then throw .isDirectory
      return files.putAt (names ++ [last]) (.file (.text value))
    | some (.file _) => throw .notDirectory
    | none => throw .notFound

/-- The file tree that is left where directories were to be made, and how it went. -/
structure Making where
  files : FileTree
  result : Except FileError Unit

/-- Makes the missing directories on the way that segments describe, as far as that goes. -/
def makeWay (files : FileTree) (trail : List String) : List String → Making
  | [] => ⟨files, .ok ()⟩
  | segment :: rest =>
    match files.root.node? trail.reverse with
    | some (.directory inside) =>
      if segment = "." then makeWay files trail rest
      else if segment = ".." then makeWay files trail.tail rest
      else match inside.find? segment with
        | some (.directory _) => makeWay files (segment :: trail) rest
        | some (.file _) => ⟨files, .error .alreadyExists⟩
        | none =>
          if nameLimit < segment.utf8ByteSize then ⟨files, .error .nameTooLong⟩
          else makeWay (files.putAt (trail.reverse ++ [segment]) (.directory .empty))
            (segment :: trail) rest
    | some (.file _) => ⟨files, .error .notDirectory⟩
    | none => ⟨files, .error .notFound⟩

/-- A file tree with the directories that segments describe. -/
def makeDirectories (files : FileTree) (trail segments : List String) :
    Except FileError FileTree :=
  let making := files.makeWay trail segments
  making.result.map fun _ => making.files

/-- Makes the missing directories above a file that is to be written. A path that leads through a
file is refused first; a file that stands in the way of a new directory is met later, after the
directories before it were made. -/
def makeParents (files : FileTree) (path : String) : Making :=
  let parent := parentPath path
  if parent.isEmpty then ⟨files, .ok ()⟩
  else match checkPath parent with
    | .error error => ⟨files, .error error⟩
    | .ok _ =>
      match files.locate (files.start path) (pathSegments parent) with
      | .error .notDirectory => ⟨files, .error .notDirectory⟩
      | _ => files.makeWay (files.start path) (pathSegments parent)

end FileTree

end FinalGrades
