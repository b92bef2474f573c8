import FinalGrades.Formula.Error
import FinalGrades.Number.Arithmetic
import FinalGrades.Number.Notation

/-!
Formulas as trees, and their value for given components. A run of operators of one level is kept
flat, in the order written, and is worked out from the left.
-/

namespace FinalGrades

inductive Operator where
  | plus
  | minus
  | times
  | over
deriving DecidableEq

namespace Operator

def symbol : Operator → String
  | .plus => "+"
  | .minus => "-"
  | .times => "*"
  | .over => "/"

def apply : Operator → Binary64 → Binary64 → Binary64
  | .plus, x, y => x + y
  | .minus, x, y => x - y
  | .times, x, y => x * y
  | .over, x, y => x / y

end Operator

mutual

/-- A formula; names are in upper case. -/
inductive Formula where
  | number (value : Binary64)
  | variable (name : String)
  | negation (inner : Formula)
  | chain (first : Formula) (steps : Steps)
deriving DecidableEq

/-- Operators with their right operands, in the order written. -/
inductive Steps where
  | done
  | step (operator : Operator) (operand : Formula) (more : Steps)
deriving DecidableEq

end

/-- Values by name; of two for one name the earlier in the list counts. -/
abbrev Bindings := List (String × Binary64)

mutual

/-- The value of a formula; the leftmost name without a value is reported. -/
def Formula.value (bindings : Bindings) : Formula → Except FormulaError Binary64
  | .number value => .ok value
  | .variable name =>
    match bindings.lookup name with
    | some value => .ok value
    | none => .error (.unboundVariable name)
  | .negation inner => do return -(← inner.value bindings)
  | .chain first steps => do steps.value bindings (← first.value bindings)

/-- Works out the steps from the left, starting with `total`. -/
def Steps.value (bindings : Bindings) (total : Binary64) : Steps → Except FormulaError Binary64
  | .done => .ok total
  | .step operator operand more => do
    more.value bindings (operator.apply total (← operand.value bindings))

end

mutual

/-- Every occurrence of a name, from the left. -/
def Formula.occurrences : Formula → List String
  | .number _ => []
  | .variable name => [name]
  | .negation inner => inner.occurrences
  | .chain first steps => first.occurrences ++ steps.occurrences

def Steps.occurrences : Steps → List String
  | .done => []
  | .step _ operand more => operand.occurrences ++ more.occurrences

end

mutual

/-- The tree in parentheses, each inner node led by its kind. -/
def Formula.outline : Formula → String
  | .number value => value.plain
  | .variable name => name
  | .negation inner => s!"(neg {inner.outline})"
  | .chain first steps => s!"(chain {first.outline}{steps.outline})"

def Steps.outline : Steps → String
  | .done => ""
  | .step operator operand more => s!" {operator.symbol} {operand.outline}{more.outline}"

end

namespace Formula

/-- The names in a formula, each once, in order of first appearance. -/
def names (formula : Formula) : List String := formula.occurrences.eraseDups

/-- A tree with steps is a chain; without them it is its first operand. -/
def chained (first : Formula) : Steps → Formula
  | .done => first
  | steps => .chain first steps

end Formula

end FinalGrades
