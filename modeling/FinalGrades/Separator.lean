import FinalGrades.Text.Blank
import FinalGrades.Text.Case

/-!
The character between the whole and the fraction of a written grade.
-/

namespace FinalGrades

inductive Separator where
  | dot
  | comma
deriving DecidableEq

namespace Separator

def char : Separator → Char
  | .dot => '.'
  | .comma => ','

def name : Separator → String
  | .dot => "dot"
  | .comma => "comma"

/-- Reads the name or the character, in any case and with blanks around it, or gives the misfit. -/
def read (text : String) : Except String Separator :=
  match Text.lower (Text.trim text) with
  | "dot" | "." => .ok .dot
  | "comma" | "," => .ok .comma
  | other => .error other

/-- What is said of a text that names no separator. -/
def misfitMessage (text : String) : String := s!"unknown decimal separator: {text}"

end Separator

end FinalGrades
