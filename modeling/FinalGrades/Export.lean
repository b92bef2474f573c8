import FinalGrades.Course
import FinalGrades.Settings
import FinalGrades.Timestamp

/-!
The export of a course: a row for every student with component grades and final grade, and a
summary. An export with grades missing is refused unless the options allow it.
-/

namespace FinalGrades

/-- A course without its students; the siglas are in column order. -/
structure CourseSummary where
  id : String
  name : String
  formula : String
  components : List String
deriving DecidableEq

/-- One student's grades, in the order of the columns. -/
structure Row where
  studentId : String
  name : Option String := none
  components : List (Option Binary64)
  finalGrade : Option Binary64
deriving DecidableEq

structure RosterExport where
  generatedAt : Timestamp
  course : CourseSummary
  rows : List Row
  summary : Summary
deriving DecidableEq

inductive ExportError where
  | incomplete (missing : List (String × String))
  | unevenRecord (found expected : Nat)
  | notWritten (cause : String)
deriving DecidableEq

namespace ExportError

def message : ExportError → String
  | .incomplete missing => s!"export refused: {missing.length} grade(s) missing"
  | .unevenRecord found expected =>
    s!"CSV error: CSV error: found record with {found} fields, but the previous record has " ++
      s!"{expected} fields"
  | .notWritten cause => s!"I/O error: {cause}"

end ExportError

namespace Course

def checkComplete (course : Course) : Except ExportError Unit :=
  if course.missingGrades.isEmpty then .ok () else .error (.incomplete course.missingGrades)

end Course

namespace RosterExport

def row (siglas : List String) (entry : RosterEntry) (final : StudentFinal) : Row :=
  { studentId := entry.studentId
    name := entry.name
    components := siglas.map fun sigla => (entry.components.get? sigla).join
    finalGrade := final.grade }

/-- The export of a course at a point in time. -/
def build (course : Course) (options : ExportOptions) (now : Timestamp) :
    Except ExportError RosterExport := do
  if options.requireComplete then course.checkComplete
  let finals := Roster.finals course.formula course.roster options.limits
  return {
    generatedAt := now
    course := ⟨course.id, course.name, course.formula, course.siglas⟩
    rows := course.roster.zipWith (row course.siglas) finals
    summary := Summary.ofFinals finals }

/-- What is noted while an export is built. -/
def buildEvents (course : Course) (options : ExportOptions) : List Event :=
  let summary := Summary.ofFinals (Roster.finals course.formula course.roster options.limits)
  Roster.events course.formula course.roster options.limits ++
    [⟨.info, s!"exported {summary.students} student(s) of {course.id} " ++
      s!"({summary.pending} pending)"⟩]

end RosterExport

end FinalGrades
