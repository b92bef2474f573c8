import FinalGrades.Roster
import FinalGrades.Scheme
import FinalGrades.Sigla

/-!
A course: its components, the formula of the final grade, and the students with the grades
recorded for them.
-/

namespace FinalGrades

structure Component where
  sigla : String
  name : String := ""
  description : Option String := none
deriving DecidableEq

structure Student where
  id : String
  name : Option String := none
  grades : Keyed Binary64 := .empty
deriving DecidableEq

structure Course where
  id : String
  name : String
  formula : String
  scheme : Option Scheme := none
  overridesScheme : Bool := false
  components : List Component
  students : List Student
deriving DecidableEq

namespace Student

def equalIgnoringCase (a b : String) : Bool :=
  a.toList.map Char.toLower = b.toList.map Char.toLower

/-- The grade recorded under a sigla, or else under the first key equal to it but for case. -/
def grade? (student : Student) (sigla : String) : Option Binary64 :=
  match student.grades.get? sigla with
  | some grade => some grade
  | none => (student.grades.entries.find? fun entry => equalIgnoringCase entry.1 sigla).map (·.2)

end Student

namespace Course

/-- The siglas in the order of the components. -/
def siglas (course : Course) : List String := course.components.map (·.sigla)

/-- Every student with an entry for every component. -/
def roster (course : Course) : List RosterEntry :=
  course.students.map fun student =>
    { studentId := student.id
      name := student.name
      components := Keyed.ofList (course.siglas.map fun sigla => (sigla, student.grade? sigla)) }

/-- The students and siglas without a grade, in the order of the students and then of the siglas. -/
def missingGrades (course : Course) : List (String × String) :=
  course.roster.flatMap fun entry =>
    entry.components.entries.filterMap fun (sigla, value) =>
      if value.isNone then some (entry.studentId, sigla) else none

end Course

end FinalGrades
