import FinalGrades.Export.Csv
import FinalGrades.Files
import FinalGrades.Roster.Json

/-!
Exports as JSON documents, and files that hold exports.
-/

namespace FinalGrades

namespace CourseSummary

def toJson (course : CourseSummary) : Json :=
  Json.ofFields [("id", Json.ofString course.id), ("name", Json.ofString course.name),
    ("formula", Json.ofString course.formula),
    ("components", Json.ofList Json.ofString course.components)]

def ofJson? (json : Json) : Option CourseSummary := do
  let fields ← Json.Fields.of? ["id", "name", "formula", "components"] json
  return ⟨← fields.required? "id" Json.text?, ← fields.required? "name" Json.text?,
    ← fields.required? "formula" Json.text?,
    ← fields.required? "components" (Json.list? Json.text?)⟩

end CourseSummary

namespace Row

def toJson (row : Row) : Json :=
  Json.ofFields [("student_id", Json.ofString row.studentId),
    ("name", Json.ofOption Json.ofString row.name),
    ("components", Json.ofList (Json.ofOption Json.ofNumber) row.components),
    ("final_grade", Json.ofOption Json.ofNumber row.finalGrade)]

def ofJson? (json : Json) : Option Row := do
  let fields ← Json.Fields.of? ["student_id", "name", "components", "final_grade"] json
  return { studentId := ← fields.required? "student_id" Json.text?
           name := ← fields.withDefault? "name" none (Json.nullable? Json.text?)
           components := ← fields.required? "components"
            (Json.list? (Json.nullable? Json.number?))
           finalGrade := ← fields.orNull? "final_grade" Json.number? }

end Row

/-- Why an export is not saved or loaded. -/
inductive DocumentError where
  | unreadable (path : String) (error : FileError)
  | malformed
  | noDirectory (error : FileError)
  | notCreated (path : String) (error : FileError)
  | notWritten (path : String) (error : FileError)
  | refused (error : ExportError)
deriving DecidableEq

namespace DocumentError

def message : DocumentError → String
  | .unreadable path error => s!"failed to read export from {path}: {error.message}"
  | .malformed => "failed to parse export JSON"
  | .noDirectory error => error.message
  | .notCreated path error => s!"failed to create {path}: {error.message}"
  | .notWritten path error => s!"failed to write export to {path}: {error.message}"
  | .refused error => error.message

end DocumentError

/-- The file tree after an attempt to save an export, and how it went. -/
structure Saving where
  files : FileTree
  result : Except DocumentError Unit

namespace RosterExport

def toJson (data : RosterExport) : Json :=
  Json.ofFields [("generated_at", Json.ofString data.generatedAt.write),
    ("course", data.course.toJson), ("rows", Json.ofList Row.toJson data.rows),
    ("summary", data.summary.toJson)]

def ofJson? (json : Json) : Option RosterExport := do
  let fields ← Json.Fields.of? ["generated_at", "course", "rows", "summary"] json
  return { generatedAt := ← fields.required? "generated_at" fun value => do
            Timestamp.read? (← Json.text? value)
           course := ← fields.required? "course" CourseSummary.ofJson?
           rows := ← fields.required? "rows" (Json.list? Row.ofJson?)
           summary := ← fields.required? "summary" Summary.ofJson? }

/-- The JSON document of an export. -/
def document (data : RosterExport) : String := String.ofList (data.toJson.pretty 0)

def ofDocument? (text : String) : Option RosterExport := do ofJson? (← Json.read? text)

/-- Makes the directories above a file and writes it; the directories stay if it is not written. -/
def place (files : FileTree) (path text : String) (failure : FileError → DocumentError) : Saving :=
  let making := files.makeParents path
  match making.result with
  | .error error => ⟨making.files, .error (.noDirectory error)⟩
  | .ok _ =>
    match making.files.writeText path text with
    | .ok written => ⟨written, .ok ()⟩
    | .error error => ⟨making.files, .error (failure error)⟩

def saveJson (data : RosterExport) (files : FileTree) (path : String) : Saving :=
  place files path data.document (.notWritten path)

/--
The file is there before the first record is written: a record that is refused leaves it with what
was written until then.
-/
def saveCsv (data : RosterExport) (options : ExportOptions) (files : FileTree) (path : String) :
    Saving :=
  let saving := place files path (Csv.written data options) (.notCreated path)
  match saving.result, Csv.write data options with
  | .ok _, .error error => ⟨saving.files, .error (.refused error)⟩
  | _, _ => saving

@[simp] theorem files_saveCsv (data : RosterExport) (options : ExportOptions) (files : FileTree)
    (path : String) : (data.saveCsv options files path).files =
      (place files path (Csv.written data options) (.notCreated path)).files := by
  unfold saveCsv
  dsimp only
  generalize place files path (Csv.written data options) (.notCreated path) = saving
  generalize Csv.write data options = text
  split <;> rfl

def loadJson (files : FileTree) (path : String) : Except DocumentError RosterExport :=
  match files.readText path with
  | .error error => .error (.unreadable path error)
  | .ok text =>
    match ofDocument? text with
    | some data => .ok data
    | none => .error .malformed

end RosterExport

end FinalGrades
