import FinalGrades.Number.Binary64

/-!
Decimal numbers as text: optional sign, digits with at most one point and at least one digit,
optional exponent; or the words for infinity and the undefined number. A decimal is read to the
double nearest to it.
-/

namespace FinalGrades

def isDigit (c : Char) : Bool := '0' ≤ c && c ≤ '9'

def digitValue (c : Char) : Nat := c.toNat - '0'.toNat

/-- The number that digits denote, after a number `high` of the digits before them. -/
def digitsValue (high : Nat) (digits : List Char) : Nat :=
  digits.foldl (fun n c => 10 * n + digitValue c) high

namespace Binary64

/--
The double nearest to `digits * 10 ^ exponent`. Exponents so large or so small that the result
is certainly infinite or zero are not multiplied out.
-/
def ofDecimal (negative : Bool) (digits : Nat) (exponent : Int) : Binary64 :=
  if digits = 0 then zero negative
  else match exponent with
    | .ofNat e =>
      if 309 ≤ e then .infinite negative else ofRatio negative (digits * Nat.pow 10 e * unit) 1
    | .negSucc e =>
      if digits.log2 + 1076 ≤ 3 * (e + 1) then zero negative
      else ofRatio negative (digits * unit) (Nat.pow 10 (e + 1))

/-- Splits a sign from the front; without one the number is positive. -/
def splitSign : List Char → Bool × List Char
  | '-' :: rest => (true, rest)
  | '+' :: rest => (false, rest)
  | text => (false, text)

/-- A nonempty run of digits with an optional sign, after the exponent mark. -/
def readExponent (text : List Char) : Option Int :=
  let (negative, digits) := splitSign text
  if digits.isEmpty || !digits.all isDigit then none
  else
    let n : Int := digitsValue 0 digits
    some (if negative then -n else n)

/-- Digits, an optional point and digits, and an optional exponent, without a sign. -/
def readUnsigned (negative : Bool) (text : List Char) : Option Binary64 :=
  let whole := text.takeWhile isDigit
  let afterWhole := text.dropWhile isDigit
  let (fraction, afterFraction) := match afterWhole with
    | '.' :: rest => (rest.takeWhile isDigit, rest.dropWhile isDigit)
    | rest => ([], rest)
  if whole.isEmpty && fraction.isEmpty then none
  else
    let digits := digitsValue (digitsValue 0 whole) fraction
    match afterFraction with
    | [] => some (ofDecimal negative digits (-(fraction.length : Int)))
    | mark :: rest =>
      if mark = 'e' || mark = 'E' then
        (readExponent rest).map fun e => ofDecimal negative digits (e - fraction.length)
      else none

/-- Reads a decimal, an infinity or the undefined number; the words in any case of letters. -/
def read? (text : List Char) : Option Binary64 :=
  let (negative, body) := splitSign text
  match String.ofList (body.map Char.toLower) with
  | "inf" | "infinity" => some (.infinite negative)
  | "nan" => some .nan
  | _ => readUnsigned negative body

end Binary64

end FinalGrades
