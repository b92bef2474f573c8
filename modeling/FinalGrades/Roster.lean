import FinalGrades.Keyed
import FinalGrades.Outcome

/-!
The final grades of a whole class under one formula, and their summary.
-/

namespace FinalGrades

/-- A student with the grade of each component, if there is one. -/
structure RosterEntry where
  studentId : String
  name : Option String := none
  components : Keyed (Option Binary64) := .empty
deriving DecidableEq

namespace RosterEntry

/-- The component grades in the order of their siglas. -/
def grades (entry : RosterEntry) : List ComponentGrade :=
  entry.components.entries.map fun (sigla, value) => ⟨sigla, value⟩

end RosterEntry

structure StudentFinal where
  studentId : String
  grade : Option Binary64
deriving DecidableEq

namespace Roster

def allPending (roster : List RosterEntry) : List StudentFinal :=
  roster.map fun entry => ⟨entry.studentId, none⟩

/-- One result for each student, in the order of the roster. -/
def finalsOf (formula : ParsedFormula) (roster : List RosterEntry) : List StudentFinal :=
  roster.map fun entry => ⟨entry.studentId, (formula.evaluate entry.grades).grade?⟩

/-- What is noted about the students that stay pending. -/
def eventsOf (formula : ParsedFormula) (roster : List RosterEntry) : List Event :=
  roster.filterMap fun entry =>
    match formula.evaluate entry.grades with
    | .graded _ => none
    | .pending (.failed error) =>
      some ⟨.debug, s!"student {entry.studentId}: final grade pending, {error.message}"⟩
    | .pending reason => some ⟨.trace, s!"student {entry.studentId}: {reason.message}"⟩

/-- The formula is read once; a blank or unreadable one leaves every student pending. -/
def finals (formula : String) (roster : List RosterEntry) (limits : Limits) : List StudentFinal :=
  if Text.isBlankText formula then allPending roster
  else match ParsedFormula.ofText formula limits with
    | .ok parsed => finalsOf parsed roster
    | .error _ => allPending roster

def events (formula : String) (roster : List RosterEntry) (limits : Limits) : List Event :=
  if Text.isBlankText formula then []
  else match ParsedFormula.ofText formula limits with
    | .ok parsed => eventsOf parsed roster
    | .error error =>
      [⟨.warn, s!"formula '{formula}' failed to compile, {roster.length} student(s) left " ++
        s!"pending: {error.message}"⟩]

end Roster

/-- How many students there are and how many are graded, and the spread of their grades. -/
structure Summary where
  students : Nat
  graded : Nat
  pending : Nat
  mean : Option Binary64
  least : Option Binary64
  greatest : Option Binary64
deriving DecidableEq

namespace Summary

/-- Combines the members of a list from the left; an empty list has no result. -/
def reduce (f : Binary64 → Binary64 → Binary64) : List Binary64 → Option Binary64
  | [] => none
  | first :: rest => some (rest.foldl f first)

/-- The mean is rounded to hundredths. -/
def ofFinals (finals : List StudentFinal) : Summary :=
  let grades := finals.filterMap (·.grade)
  { students := finals.length
    graded := grades.length
    pending := finals.length - grades.length
    mean := if grades.isEmpty then none else
      some (Grade.roundHalfUp (Binary64.sum grades / Binary64.ofNat grades.length) 2)
    least := reduce Binary64.min grades
    greatest := reduce Binary64.max grades }

end Summary

end FinalGrades
