/-!
What can be wrong with a formula, in its text or for one student's grades.
-/

namespace FinalGrades

inductive FormulaError where
  | unexpectedChar (character : Char) (position : Nat)
  | unexpectedToken (found : String) (position : Nat)
  | unexpectedEnd
  | invalidNumber (literal : String)
  | unboundVariable (name : String)
  | nonFinite
  | tooLong (length limit : Nat)
  | tooDeep (limit : Nat)
deriving DecidableEq

namespace FormulaError

/-- The text alone is at fault, so the formula fails for every student. -/
def isSyntax : FormulaError → Bool
  | .unboundVariable _ | .nonFinite => false
  | _ => true

def message : FormulaError → String
  | .unexpectedChar c position => s!"unexpected character '{c}' at position {position}"
  | .unexpectedToken found position => s!"unexpected '{found}' at position {position}"
  | .unexpectedEnd => "unexpected end of formula"
  | .invalidNumber literal => s!"invalid number literal '{literal}'"
  | .unboundVariable name => s!"undefined symbol {name}"
  | .nonFinite => "formula did not evaluate to a finite number"
  | .tooLong length limit => s!"formula is too long ({length} characters, limit {limit})"
  | .tooDeep limit => s!"formula nesting exceeds depth limit of {limit}"

end FormulaError

end FinalGrades
