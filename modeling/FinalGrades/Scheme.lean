import FinalGrades.Number.Arithmetic
import FinalGrades.Number.Notation
import FinalGrades.Text.Blank
import FinalGrades.Text.Case

/-!
Averaging schemes, and the formula that a scheme stands for over a course's siglas.
-/

namespace FinalGrades

inductive Averaging where
  | simple
  | weighted
deriving DecidableEq

inductive SchemeError where
  | unknownAveraging (text : String)
  | unusableWeights (expected given : Nat)
  | weightSumNotPositive (total : Binary64)
deriving DecidableEq

namespace SchemeError

def message : SchemeError → String
  | .unknownAveraging text =>
    s!"invalid average type: '{text}' (expected 'simple' or 'weighted')"
  | .unusableWeights expected given =>
    "weighted average requires one finite weight per component with a finite sum " ++
      s!"(expected {expected}, got {given})"
  | .weightSumNotPositive total =>
    s!"the sum of the weights must be greater than zero (got {total.plain})"

end SchemeError

namespace Averaging

def name : Averaging → String
  | .simple => "simple"
  | .weighted => "weighted"

/-- Reads the English or the Portuguese word, in any case and with blanks around it. -/
def read (text : String) : Except SchemeError Averaging :=
  match Text.lower (Text.trim text) with
  | "simple" | "simples" => .ok .simple
  | "weighted" | "ponderada" => .ok .weighted
  | other => .error (.unknownAveraging other)

end Averaging

structure Scheme where
  averaging : Averaging
  weights : Option (List Binary64) := none
deriving DecidableEq

namespace Scheme

/-- Three decimal places, a half going away from zero; the result is never negative zero. -/
def roundWeight (weight : Binary64) : Binary64 :=
  let rounded := (weight * 1000).round / 1000
  if 0 ≤ rounded ∧ rounded ≤ 0 then 0 else rounded

def simpleFormula (siglas : List String) : String :=
  "(" ++ String.intercalate " + " siglas ++ s!") / {siglas.length}"

def weightedTerm (total : Binary64) (sigla : String) (weight : Binary64) : String :=
  s!"({sigla} * {(roundWeight (weight / total)).plain})"

/-- One finite weight for each sigla, with a finite positive sum, is needed. -/
def weightedFormula (siglas : List String) (weights : List Binary64) :
    Except SchemeError String :=
  let total := Binary64.sum weights
  if weights.length ≠ siglas.length ∨ ¬ weights.all Binary64.isFinite ∨ ¬ total.isFinite then
    .error (.unusableWeights siglas.length weights.length)
  else if total ≤ 0 then .error (.weightSumNotPositive total)
  else .ok (String.intercalate " + " (siglas.zipWith (weightedTerm total) weights))

/-- The formula of a scheme; without siglas it is empty. -/
def formula (siglas : List String) (scheme : Scheme) : Except SchemeError String :=
  if siglas.isEmpty then .ok ""
  else match scheme.averaging with
    | .simple => .ok (simpleFormula siglas)
    | .weighted => weightedFormula siglas (scheme.weights.getD [])

/-- The same with the averaging as text, which is not even read when there are no siglas. -/
def formulaOfText (siglas : List String) (averaging : String) (weights : Option (List Binary64)) :
    Except SchemeError String :=
  if siglas.isEmpty then .ok ""
  else do formula siglas ⟨← Averaging.read averaging, weights⟩

end Scheme

end FinalGrades
