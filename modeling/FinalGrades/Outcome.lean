import FinalGrades.Event
import FinalGrades.Formula.Parser
import FinalGrades.Grade

/-!
The final grade of one student: the component grades are clamped to the scale, a missing one
leaves the student pending, and the value of the formula is capped at the highest grade and
rounded to hundredths.
-/

namespace FinalGrades

/-- A component's grade; none while it is not graded, which is not the same as zero. -/
structure ComponentGrade where
  sigla : String
  value : Option Binary64
deriving DecidableEq

inductive PendingReason where
  | noFormula
  | missingComponent (sigla : String)
  | failed (error : FormulaError)
deriving DecidableEq

namespace PendingReason

def message : PendingReason → String
  | .noFormula => "no formula configured"
  | .missingComponent sigla => s!"missing grade for {sigla}"
  | .failed error => s!"formula error: {error.message}"

end PendingReason

inductive Outcome where
  | graded (grade : Binary64)
  | pending (reason : PendingReason)
deriving DecidableEq

namespace Outcome

def grade? : Outcome → Option Binary64
  | .graded grade => some grade
  | .pending _ => none

end Outcome

/-- A formula's text with the tree it was read to. -/
structure ParsedFormula where
  source : String
  tree : Formula
deriving DecidableEq

/-- The clamped grades by sigla in upper case, or the first grade that is missing or not finite. -/
def bindGrades : List ComponentGrade → Bindings → Except PendingReason Bindings
  | [], bindings => .ok bindings
  | ⟨sigla, some value⟩ :: rest, bindings =>
    if value.isFinite then bindGrades rest ((Text.upper sigla, Grade.clamp value) :: bindings)
    else .error (.missingComponent sigla)
  | ⟨sigla, none⟩ :: _, _ => .error (.missingComponent sigla)

/-- The raw value as a grade, unless it or its rounded form is not finite. -/
def finalGrade? (raw : Binary64) : Option Binary64 :=
  if raw.isFinite then
    let rounded := Grade.roundHalfUp (Binary64.min raw Grade.highest) 2
    if rounded.isFinite then some rounded else none
  else none

namespace ParsedFormula

def ofText (source : String) (limits : Limits) : Except FormulaError ParsedFormula := do
  return ⟨source, ← Formula.parse source limits⟩

def evaluate (formula : ParsedFormula) (grades : List ComponentGrade) : Outcome :=
  match bindGrades grades [] with
  | .error reason => .pending reason
  | .ok bindings =>
    match formula.tree.value bindings with
    | .error error => .pending (.failed error)
    | .ok raw =>
      match finalGrade? raw with
      | some grade => .graded grade
      | none => .pending (.failed .nonFinite)

end ParsedFormula

/-- A missing grade is reported before anything wrong with the formula. -/
def evaluate (formula : String) (grades : List ComponentGrade) : Outcome :=
  if Text.isBlankText formula then .pending .noFormula
  else match bindGrades grades [] with
    | .error reason => .pending reason
    | .ok _ =>
      match ParsedFormula.ofText formula {} with
      | .ok parsed => parsed.evaluate grades
      | .error error => .pending (.failed error)

/-- What is noted about a single evaluation. -/
def Outcome.events : Outcome → List Event
  | .pending (.failed error) => [⟨.debug, s!"final grade pending: {error.message}"⟩]
  | _ => []

end FinalGrades
