import FinalGrades.Command.Request
import FinalGrades.Command.Sample
import FinalGrades.Course.Check
import FinalGrades.Course.Folder
import FinalGrades.Export.Json
import FinalGrades.Table

/-!
What the commands do: the text they put out, the text they complain with, and the files they
leave. Only the commands that make files touch the file tree, and a refused export leaves it alone.
-/

namespace FinalGrades

/-- The result of a run. -/
structure Run where
  code : Nat := 0
  output : String := ""
  complaints : String := ""
  files : FileTree

/-- What a run starts from. -/
structure Situation where
  files : FileTree
  environment : Environment := {}
  now : Timestamp

namespace Run

def line (text : String) : String := text ++ "\n"

/-- Ends with an error, after what was put out before. -/
def failed (files : FileTree) (error : String) (complaints : String := "")
    (output : String := "") : Run :=
  { code := 1, output, complaints := complaints ++ line s!"Error: {error}", files }

/-- The parts of a list between commas, without blanks around them and without empty ones. -/
def splitList (text : String) : List String :=
  ((text.toList.splitOn ',').map fun part => String.ofList (Text.trimChars part)).filter
    (!·.isEmpty)

def notANumber : String := "invalid float literal"

def readWeight (text : String) : Except String Binary64 :=
  match Binary64.read? text.toList with
  | some weight => .ok weight
  | none => .error s!"invalid --weights: '{text}' is not a number: {notANumber}"

def buildFormula (components mode : String) (weights : Option String) : Except String String := do
  let weights ← weights.mapM fun text => (splitList text).mapM readWeight
  (Scheme.formulaOfText (splitList components) mode weights).mapError (·.message)

def build (files : FileTree) (components mode : String) (weights : Option String) : Run :=
  match buildFormula components mode weights with
  | .error error => failed files error
  | .ok formula =>
    if formula.isEmpty then
      { complaints := line "No components given, formula is empty.", files }
    else { output := line formula, files }

def warningLine (warning : Warning) : String :=
  match warning.studentId with
  | some id => line s!"  [{id}] WARNING: {warning.message}"
  | none => line s!"   WARNING: {warning.message}"

def courseReport (course : Course) : String :=
  line (s!"Course: {course.name} ({course.components.length} components, " ++
      s!"{course.students.length} students)") ++
    (if course.formula.isEmpty then "" else line s!"  Formula: {course.formula}") ++
    String.join (course.warnings.map warningLine)

def loadCourses (files : FileTree) (path : String) : Except CourseError (List Course) :=
  if (files.directory? path).isSome then Course.loadFolder files path
  else do return [← Course.load files path]

def check (files : FileTree) (path : String) : Run :=
  match loadCourses files path with
  | .error error => failed files error.message
  | .ok courses =>
    let total := (courses.flatMap (·.warnings)).length
    { output := String.join (courses.map courseReport) ++
        (if total = 0 then line "All courses valid." else line s!"\n{total} warning(s) found.")
      files }

/-- Reads `SIGLA=VALUE`; a comma may stand for the point, and an empty value is no grade. -/
def readGrade (text : String) : Except String ComponentGrade :=
  match text.toList.dropWhile (· != '=') with
  | [] => .error s!"expected SIGLA=VALUE, got '{text}'"
  | _ :: value =>
    let sigla := Text.trimChars (text.toList.takeWhile (· != '='))
    let value := Text.trimChars value
    if sigla.isEmpty then .error s!"missing sigla in '{text}'"
    else if value.isEmpty then .ok ⟨String.ofList sigla, none⟩
    else match Binary64.read? (value.map fun c => if c = ',' then '.' else c) with
      | some grade => .ok ⟨String.ofList sigla, some grade⟩
      | none => .error s!"'{String.ofList value}' is not a grade: {notANumber}"

def preview (files : FileTree) (formula : String) (grades : List String) : Run :=
  match grades.mapM readGrade with
  | .error error => failed files error
  | .ok grades =>
    let warnings := (Coverage.ofFormula formula (grades.map (·.sigla))).messages
    let outcome := evaluate formula grades
    { output := line (Display.preview outcome.grade?)
      complaints := String.join (warnings.map fun message => line s!"WARNING: {message}") ++
        (match outcome with
          | .graded _ => ""
          | .pending reason => line s!"Pending: {reason.message}")
      files }

/-- The roster as a table for the screen. -/
def rosterTable (data : RosterExport) : Table :=
  { header := "Student" :: "Name" :: data.course.components ++ ["Final"]
    rows := data.rows.map fun row =>
      row.studentId :: row.name.getD "" ::
        row.components.map (fun value => Display.component value .dot) ++
        [Display.preview row.finalGrade] }

def summaryLine (summary : Summary) : String :=
  line (s!"{summary.students} student(s): {summary.graded} graded, {summary.pending} pending " ++
    s!"(mean {Display.preview summary.mean}, min {Display.preview summary.least}, " ++
    s!"max {Display.preview summary.greatest})")

/-- The settings of a roster run, with what its options put over them. -/
def rosterSettings (situation : Situation) (settings decimal : Option String)
    (allowIncomplete : Bool) : Except String Settings := do
  let loaded ← (Settings.load situation.files situation.environment settings).mapError (·.message)
  let separator ← match decimal with
    | none => pure loaded.separator
    | some text =>
      (Separator.read text).mapError fun misfit => s!"--decimal: {Separator.misfitMessage misfit}"
  return { loaded with
    separator
    requireComplete := loaded.requireComplete && !allowIncomplete }

/-- What the export of a roster run depends on; the table never asks for all grades. -/
def rosterOptions (situation : Situation) (settings decimal : Option String)
    (allowIncomplete : Bool) (format : String) : Except String ExportOptions := do
  let options := ExportOptions.ofSettings
    (← rosterSettings situation settings decimal allowIncomplete)
  return if format = "table" then { options with requireComplete := false } else options

/-- Saves an export if a path is given, and else puts its text out. -/
def deliver (files : FileTree) (complaints : String) (output : Option String)
    (save : String → Saving) (text : Except ExportError String) : Run :=
  match output with
  | some path =>
    let saving := save path
    match saving.result with
    | .ok _ =>
      { complaints := complaints ++ line s!"Roster saved to: {path}", files := saving.files }
    | .error error => failed saving.files error.message complaints
  | none =>
    match text with
    | .ok text => { output := text, complaints, files }
    | .error error => failed files error.message complaints

/-- Puts out the roster of a course in one of three formats. -/
def rosterOf (situation : Situation) (course : Course) (options : ExportOptions)
    (format : String) (output : Option String) (complaints : String) : Run :=
  let files := situation.files
  let built := RosterExport.build course options situation.now
  match format with
  | "table" =>
    match built with
    | .error error => failed files error.message complaints
    | .ok data =>
      { output := line (rosterTable data).render
        complaints := complaints ++ summaryLine data.summary
        files }
  | "csv" =>
    match built with
    | .error error => failed files error.message complaints
    | .ok data =>
      deliver files complaints output (data.saveCsv options files) (Csv.write data options)
  | "json" =>
    match built with
    | .error error => failed files error.message complaints
    | .ok data => deliver files complaints output (data.saveJson files) (.ok (line data.document))
  | other =>
    failed files s!"unknown format: {other} (expected table, csv or json)" complaints

/-- Puts out the roster of the course at a path. -/
def rosterUnder (situation : Situation) (options : ExportOptions) (path format : String)
    (output : Option String) : Run :=
  match Course.load situation.files path with
  | .error error => failed situation.files error.message
  | .ok course =>
    rosterOf situation course options format output
      (if course.formula.isEmpty then
        line s!"WARNING: course {course.id} has no formula; all grades are pending"
      else "")

def roster (situation : Situation) (path format : String) (output decimal : Option String)
    (allowIncomplete : Bool) (settings : Option String) : Run :=
  match rosterOptions situation settings decimal allowIncomplete format with
  | .error error => failed situation.files error
  | .ok options => rosterUnder situation options path format output

/-- Writes a file unless it is there, and says which. -/
def provide (files : FileTree) (path text : String) : Except FileError (FileTree × String) := do
  if files.exists? path then return (files, line s!"{path} already exists, skipping.")
  return (← files.writeText path text, line s!"Created {path}")

def nextSteps : String :=
  line "\nNext steps:" ++
    line s!"  1. Edit {Sample.coursePath} with your components and students" ++
    line s!"  2. Run: gradebook check --course {Sample.coursePath}" ++
    line s!"  3. Run: gradebook roster --course {Sample.coursePath}"

/-- Provides sample settings and a sample course. -/
def init (files : FileTree) : Run :=
  match provide files Settings.fileName Sample.settings with
  | .error error => failed files error.message
  | .ok (files, first) =>
    let making := files.makeParents Sample.coursePath
    match making.result with
    | .error error => failed making.files error.message "" first
    | .ok _ =>
      match provide making.files Sample.coursePath Sample.course with
      | .error error => failed making.files error.message "" first
      | .ok (files, second) => { output := first ++ second ++ nextSteps, files }

def perform (situation : Situation) : Command → Run
  | .build components mode weights => build situation.files components mode weights
  | .check course => check situation.files course
  | .preview formula grades => preview situation.files formula grades
  | .roster course format output decimal allowIncomplete settings =>
    roster situation course format output decimal allowIncomplete settings
  | .init => init situation.files

def versionText : String := line "gradebook 0.1.0"

def helpText : String :=
  line "Final grade formula engine" ++ line "" ++
    line "Usage: gradebook <COMMAND>" ++ line "" ++
    line "Commands: build, check, preview, roster, init"

/-- Runs the program on the words of its command line. -/
def ofWords (situation : Situation) (words : List String) : Run :=
  match Request.ofWords words with
  | .perform command => perform situation command
  | .showVersion => { output := versionText, files := situation.files }
  | .showHelp => { output := helpText, files := situation.files }
  | .refuse => { code := 2, files := situation.files }

end Run

end FinalGrades
