/-!
Blank characters, those with the Unicode property White_Space, and text without them at its ends.
-/

namespace FinalGrades.Text

/-- The 25 characters of white space. -/
def isBlank (c : Char) : Bool :=
  let n := c.toNat
  (9 ≤ n && n ≤ 13) || n = 0x20 || n = 0x85 || n = 0xA0 || n = 0x1680 ||
    (0x2000 ≤ n && n ≤ 0x200A) || n = 0x2028 || n = 0x2029 || n = 0x202F || n = 0x205F ||
    n = 0x3000

/-- Drops blanks from both ends. -/
def trimChars (text : List Char) : List Char :=
  ((text.dropWhile isBlank).reverse.dropWhile isBlank).reverse

def trim (text : String) : String := String.ofList (trimChars text.toList)

/-- Holds nothing but blanks. -/
def isBlankText (text : String) : Bool := text.toList.all isBlank

end FinalGrades.Text
