import FinalGrades.Keyed
import FinalGrades.Sigla
import FinalGrades.Text.Case

/-!
Whether a formula's text and a course's siglas mention the same components. The findings are
warnings only.
-/

namespace FinalGrades

/-- Registered siglas that the formula leaves out, and its words that are no registered sigla. -/
structure Coverage where
  unused : Keyed Unit := .empty
  unknown : Keyed Unit := .empty
deriving DecidableEq

namespace Coverage

/-- The longest runs of sigla characters, in order. -/
def words (text : List Char) : List String :=
  match _h : text.dropWhile (!isSiglaChar ·) with
  | [] => []
  | c :: rest =>
    String.ofList (c :: rest.takeWhile isSiglaChar) :: words (rest.dropWhile isSiglaChar)
termination_by text.length
decreasing_by
  have hdrop := (List.dropWhile_suffix (l := text) (!isSiglaChar ·)).length_le
  have hrest := (List.dropWhile_suffix (l := rest) isSiglaChar).length_le
  rw [_h] at hdrop
  exact Nat.lt_of_le_of_lt hrest hdrop

def isNumeral (word : String) : Bool := word.toList.all Char.isDigit

def setOf (names : List String) : Keyed Unit := Keyed.ofList (names.map fun name => (name, ()))

/--
Compares in upper case. Words made of digits only, as the parts of a decimal, count as numbers
and not as components.
-/
def ofFormula (formula : String) (siglas : List String) : Coverage :=
  let mentioned := words (Text.upperChars formula.toList)
  let registered := siglas.map Text.upper
  { unused := setOf (siglas.filter fun sigla => !mentioned.contains (Text.upper sigla))
    unknown := setOf (mentioned.filter fun word => !isNumeral word && !registered.contains word) }

def isClean (coverage : Coverage) : Bool :=
  coverage.unused.entries.isEmpty && coverage.unknown.entries.isEmpty

/-- One warning for each finding. -/
def messages (coverage : Coverage) : List String :=
  coverage.unused.keys.map (fun sigla =>
      s!"component '{sigla}' is registered but not used in the formula") ++
    coverage.unknown.keys.map fun word =>
      s!"'{word}' is used in the formula but is not a registered component"

end Coverage

end FinalGrades
