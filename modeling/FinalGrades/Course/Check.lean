import FinalGrades.Course
import FinalGrades.Coverage

/-!
What looks wrong with a course. The findings are warnings; none of them stops anything.
-/

namespace FinalGrades

/-- A finding about the course, or about one student of it. -/
structure Warning where
  studentId : Option String := none
  message : String
deriving DecidableEq

namespace Course

/-- Pairs every element with the elements before it, the nearest first. -/
def withEarlier {α : Type} (earlier : List α) : List α → List (α × List α)
  | [] => []
  | x :: rest => (x, earlier) :: withEarlier (x :: earlier) rest

def startsWithDigit (text : String) : Bool := text.toList.head?.any Char.isDigit

/-- A sigla that cannot be used in formulas, or equals an earlier one but for case. -/
def siglaWarnings (sigla : String) (earlier : List String) : List Warning :=
  (if !isValidSigla sigla then
    [{ message := s!"invalid sigla '{sigla}': use only letters, digits and '_'" }]
  else if startsWithDigit sigla then
    [{ message := s!"sigla '{sigla}' starts with a digit and cannot be referenced in a formula" }]
  else []) ++
  if (earlier.map Text.upper).contains (Text.upper sigla) then
    [{ message := s!"duplicate sigla: {sigla}" }]
  else []

def formulaWarnings (course : Course) : List Warning :=
  if Text.isBlankText course.formula then
    if course.components.isEmpty then []
    else [{ message := "no formula configured; every final grade will be pending" }]
  else
    (match Formula.parse course.formula {} with
      | .ok _ => []
      | .error error =>
        [{ message :=
            s!"formula does not parse ({error.message}); every final grade will be pending" }]) ++
    (Coverage.ofFormula course.formula course.siglas).messages.map ({ message := · })

/-- A grade for no component, or one that will count as missing or be clamped. -/
def gradeWarnings (siglas : List String) (id : String) (entry : String × Binary64) :
    List Warning :=
  let (sigla, grade) := entry
  (if (siglas.map Text.upper).contains (Text.upper sigla) then []
  else [{ studentId := id, message := s!"grade for unregistered component '{sigla}'" }]) ++
  if !grade.isFinite then
    [{ studentId := id
       message := s!"{sigla} is not a finite number; the final grade will be pending" }]
  else if Grade.lowest ≤ grade ∧ grade ≤ Grade.highest then []
  else
    [{ studentId := id
       message := s!"{sigla} = {grade.plain} is outside [0, 10] and will be clamped" }]

def studentWarnings (siglas : List String) (student : Student) (earlier : List Student) :
    List Warning :=
  (if (earlier.map (·.id)).contains student.id then
    [{ studentId := student.id, message := s!"duplicate student ID: {student.id}" }]
  else []) ++
  student.grades.entries.flatMap (gradeWarnings siglas student.id)

/-- All warnings: on the siglas, the formula, the scheme, and each student in turn. -/
def warnings (course : Course) : List Warning :=
  (withEarlier [] course.siglas).flatMap (fun (sigla, earlier) => siglaWarnings sigla earlier) ++
  course.formulaWarnings ++
  (if course.overridesScheme then
    [{ message := "both formula and [average] are set; the explicit formula is used" }]
  else []) ++
  (withEarlier [] course.students).flatMap fun (student, earlier) =>
    studentWarnings course.siglas student earlier

end Course

end FinalGrades
