import FinalGrades.Course
import FinalGrades.Files
import FinalGrades.Toml.Fields

/-!
Course files: a course written in TOML, with a formula of its own or a scheme to make one from.
-/

namespace FinalGrades

/-- Why there is no course to work with. -/
inductive CourseError where
  | unreadable (path : String) (error : FileError)
  | malformed (source : String) (error : Toml.FieldError)
  | badAveraging (source : String) (error : SchemeError)
  | noFormula (source : String) (error : SchemeError)
  | notDirectory (path : String)
deriving DecidableEq

namespace CourseError

/-- What was being done when the error came up. -/
def context : CourseError → String
  | .unreadable path _ => s!"failed to read course file: {path}"
  | .malformed source _ => s!"failed to parse TOML: {source}"
  | .badAveraging source _ => s!"invalid [average] in {source}"
  | .noFormula source _ => s!"cannot build formula for {source}"
  | .notDirectory path => s!"not a directory: {path}"

def message (error : CourseError) : String :=
  match error with
  | .unreadable _ cause => s!"{error.context}: {cause.message}"
  | .malformed _ cause => s!"{error.context}: {cause.message}"
  | .badAveraging _ cause | .noFormula _ cause => s!"{error.context}: {cause.message}"
  | .notDirectory _ => error.context

end CourseError

namespace Course

open Toml (Fields)

def readComponent (item : Toml.Item) : Except Toml.FieldError Component := do
  let fields ← Fields.ofItem ["sigla", "name", "description"] item
  return { sigla := ← fields.required "sigla" Toml.text
           name := (← fields.optional "name" Toml.text).getD ""
           description := ← fields.optional "description" Toml.text }

def readStudent (item : Toml.Item) : Except Toml.FieldError Student := do
  let fields ← Fields.ofItem ["id", "name", "grades"] item
  return { id := ← fields.required "id" Toml.text
           name := ← fields.optional "name" Toml.text
           grades := (← fields.optional "grades" Toml.numbers).getD .empty }

/-- A course file before its averaging is read and its formula made. -/
structure Document where
  id : String
  name : String
  formula : Option String
  average : Option (String × Option (List Binary64))
  components : List Component
  students : List Student

def readHeader (item : Toml.Item) :
    Except Toml.FieldError (String × String × Option String) := do
  let fields ← Fields.ofItem ["id", "name", "formula"] item
  return (← fields.required "id" Toml.text, ← fields.required "name" Toml.text,
    ← fields.optional "formula" Toml.text)

def readAverage (item : Toml.Item) :
    Except Toml.FieldError (String × Option (List Binary64)) := do
  let fields ← Fields.ofItem ["mode", "weights"] item
  return (← fields.required "mode" Toml.text,
    ← fields.optional "weights" (Toml.list Toml.number))

def readDocument (text : String) : Except Toml.FieldError Document := do
  let fields ← Fields.ofText text
  let (id, name, formula) ← fields.required "course" readHeader
  return { id, name, formula
           average := ← fields.optional "average" readAverage
           components := (← fields.optional "components" (Toml.list readComponent)).getD []
           students := (← fields.optional "students" (Toml.list readStudent)).getD [] }

/-- A blank formula counts as none; one that is given goes before the scheme. -/
def ofDocument (document : Document) (source : String) : Except CourseError Course := do
  let scheme ← match document.average with
    | none => pure none
    | some (mode, weights) =>
      match Averaging.read mode with
      | .ok averaging => pure (some (⟨averaging, weights⟩ : Scheme))
      | .error error => throw (.badAveraging source error)
  let explicit := document.formula.filter fun formula => !Text.isBlankText formula
  let formula ← match explicit, scheme with
    | some formula, _ => pure formula
    | none, none => pure ""
    | none, some scheme =>
      match scheme.formula (document.components.map (·.sigla)) with
      | .ok formula => pure formula
      | .error error => throw (.noFormula source error)
  return { id := document.id
           name := document.name
           formula, scheme
           overridesScheme := explicit.isSome && scheme.isSome
           components := document.components
           students := document.students }

/-- Reads a course; `source` is named in errors. -/
def read (text : String) (source : String) : Except CourseError Course :=
  match readDocument text with
  | .ok document => ofDocument document source
  | .error error => .error (.malformed source error)

/-- The course in the file at a path that was found to have this content. -/
def ofContent (path : String) : Except FileError String → Except CourseError Course
  | .ok text => read text path
  | .error error => .error (.unreadable path error)

def load (files : FileTree) (path : String) : Except CourseError Course :=
  ofContent path (files.readText path)

end Course

end FinalGrades
