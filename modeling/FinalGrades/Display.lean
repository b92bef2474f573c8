import FinalGrades.Number.Notation
import FinalGrades.Separator

/-!
How grades are shown in exports and previews.
-/

namespace FinalGrades.Display

/-- Two places with the given separator. -/
def number (value : Binary64) (separator : Separator) : String :=
  match separator with
  | .dot => value.twoPlaces
  | .comma => String.ofList (value.twoPlaces.toList.map fun c => if c = '.' then ',' else c)

/-- A final grade in an export. -/
def grade (value : Option Binary64) (separator : Separator) : String :=
  match value with
  | some g => number g separator
  | none => "N/A"

/-- A component grade in an export, empty while it is not graded. -/
def component (value : Option Binary64) (separator : Separator) : String :=
  match value with
  | some g => number g separator
  | none => ""

/-- A final grade on the screen. -/
def preview (value : Option Binary64) : String :=
  match value with
  | some g => if g.isFinite then g.twoPlaces else "-"
  | none => "-"

end FinalGrades.Display
