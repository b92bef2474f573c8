import FinalGrades.Number.Arithmetic
import FinalGrades.Number.Decimal

/-!
The scale of grades, from 0 to 10, and how grades are rounded.
-/

namespace FinalGrades.Grade

def lowest : Binary64 := 0

def highest : Binary64 := 10

/-- Moves a component grade into the scale. -/
def clamp (grade : Binary64) : Binary64 := Binary64.clamp lowest highest grade

def half : Binary64 := Binary64.ofDecimal false 5 (-1)

/-- Rounds to a number of decimal places, negative ones being tens; a half goes up. -/
def roundHalfUp (value : Binary64) (places : Int) : Binary64 :=
  let factor := Binary64.power 10 places
  (value * factor + half).floor / factor

end FinalGrades.Grade
