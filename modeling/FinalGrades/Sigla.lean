/-!
Siglas, the short names of a course's components.
-/

namespace FinalGrades

/-- A letter, a digit or the underscore, all of ASCII. -/
def isSiglaChar (c : Char) : Bool := c.isAlphanum || c = '_'

/-- A sigla can be written in a formula only if it is such a run of characters. -/
def isValidSigla (sigla : String) : Bool :=
  !sigla.toList.isEmpty && sigla.toList.all isSiglaChar

end FinalGrades
