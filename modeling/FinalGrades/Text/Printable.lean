import FinalGrades.Text.Case
import FinalGrades.Text.PrintableTable

/-!
A character between quotes, in a form that can be printed.
-/

namespace FinalGrades.Text

/-- The character has a printed form that stands alone. -/
def isPrintable (c : Char) : Bool :=
  !inRanges extendingRanges c && !inRanges unprintedRanges c

/-- The characters of a quoted character: an escape letter, itself, or its number in hexadecimal. -/
def escaped (c : Char) : List Char :=
  if c = '\x00' then ['\\', '0']
  else if c = '\t' then ['\\', 't']
  else if c = '\r' then ['\\', 'r']
  else if c = '\n' then ['\\', 'n']
  else if c = '\'' || c = '\\' then ['\\', c]
  else if isPrintable c then [c]
  else ['\\', 'u', Char.ofNat 0x7B] ++ Nat.toDigits 16 c.toNat ++ [Char.ofNat 0x7D]

/-- The character in single quotes. -/
def quoted (c : Char) : String := String.ofList ('\'' :: escaped c ++ ['\''])

end FinalGrades.Text
