import FinalGrades.Number.Decimal
import FinalGrades.Toml.Item

/-!
TOML values that are written without quotes or brackets: booleans, integers, floats, and dates
and times, of which only the validity matters here.
-/

namespace FinalGrades.Toml

/-- The digits of a run in which single underscores may stand between digits. -/
def digitRun (isDigitChar : Char → Bool) : List Char → Option (List Char)
  | [] => none
  | [c] => if isDigitChar c then some [c] else none
  | c :: '_' :: rest => if isDigitChar c then (digitRun isDigitChar rest).map (c :: ·) else none
  | c :: rest => if isDigitChar c then (digitRun isDigitChar rest).map (c :: ·) else none

/-- A digit run that does not begin with a zero, unless it is a zero alone. -/
def decimalRun (text : List Char) : Option (List Char) :=
  match text with
  | '0' :: _ :: _ => none
  | _ => digitRun isDigit text

def splitSign (text : List Char) : Bool × List Char := Binary64.splitSign text

def hexDigitValue (c : Char) : Nat :=
  if isDigit c then digitValue c
  else if 'a' ≤ c ∧ c ≤ 'f' then c.toNat - 'a'.toNat + 10
  else c.toNat - 'A'.toNat + 10

def isHexDigit (c : Char) : Bool :=
  isDigit c || ('a' ≤ c && c ≤ 'f') || ('A' ≤ c && c ≤ 'F')

/-- The number of digits to a base. -/
def valueIn (base : Nat) (digits : List Char) : Nat :=
  digits.foldl (fun n c => base * n + hexDigitValue c) 0

def largestInteger : Nat := 0x7FFFFFFFFFFFFFFF

/-- Integers of 64 bits, in decimal with a sign or to the base 16, 8 or 2 without one. -/
def integer? (text : List Char) : Option Int :=
  let ofBase (base : Nat) (isDigitChar : Char → Bool) (rest : List Char) : Option Int := do
    let value := valueIn base (← digitRun isDigitChar rest)
    if value ≤ largestInteger then some value else none
  match text with
  | '0' :: 'x' :: rest => ofBase 16 isHexDigit rest
  | '0' :: 'o' :: rest => ofBase 8 (fun c => '0' ≤ c && c ≤ '7') rest
  | '0' :: 'b' :: rest => ofBase 2 (fun c => c = '0' || c = '1') rest
  | _ => do
    let (negative, body) := splitSign text
    let value := digitsValue 0 (← decimalRun body)
    if negative then (if value ≤ largestInteger + 1 then some (-(value : Int)) else none)
    else if value ≤ largestInteger then some value else none

/-- A float needs a fraction or an exponent; one that overflows upward is refused. -/
def float? (text : List Char) : Option Binary64 := do
  let (negative, body) := splitSign text
  if body = ['i', 'n', 'f'] then return .infinite negative
  if body = ['n', 'a', 'n'] then return .nan
  let isMark (c : Char) : Bool := c = 'e' || c = 'E'
  let mantissa := body.takeWhile (!isMark ·)
  let exponent ← match body.dropWhile (!isMark ·) with
    | [] => pure none
    | _ :: rest =>
      let (negativeExponent, run) := splitSign rest
      let value : Int := digitsValue 0 (← digitRun isDigit run)
      pure (some (if negativeExponent then -value else value))
  let whole ← decimalRun (mantissa.takeWhile (· != '.'))
  let fraction ← match mantissa.dropWhile (· != '.') with
    | [] => pure none
    | _ :: run => some <$> digitRun isDigit run
  if exponent.isNone && fraction.isNone then none
  else
    let places := fraction.getD []
    let value := Binary64.ofDecimal negative (digitsValue (digitsValue 0 whole) places)
      (exponent.getD 0 - places.length)
    if value = .infinite false then none else some value

/-- Two digits, with what follows them. -/
def twoDigits : List Char → Option (Nat × List Char)
  | a :: b :: rest =>
    if isDigit a && isDigit b then some (10 * digitValue a + digitValue b, rest) else none
  | _ => none

def expect (c : Char) : List Char → Option (List Char)
  | d :: rest => if c = d then some rest else none
  | [] => none

def isLeapYear (year : Nat) : Bool := year % 4 = 0 && (year % 100 != 0 || year % 400 = 0)

def daysInMonth (year month : Nat) : Nat :=
  if month = 2 then (if isLeapYear year then 29 else 28)
  else if month = 4 ∨ month = 6 ∨ month = 9 ∨ month = 11 then 30
  else 31

/-- What follows a date that exists. -/
def skipDate (text : List Char) : Option (List Char) := do
  let (century, text) ← twoDigits text
  let (years, text) ← twoDigits text
  let (month, text) ← twoDigits (← expect '-' text)
  let (day, text) ← twoDigits (← expect '-' text)
  if 1 ≤ month ∧ month ≤ 12 ∧ 1 ≤ day ∧ day ≤ daysInMonth (100 * century + years) month then
    some text
  else none

/-- What follows a time of day, with seconds and perhaps a fraction of them. -/
def skipTime (text : List Char) : Option (List Char) := do
  let (hour, text) ← twoDigits text
  let (minute, text) ← twoDigits (← expect ':' text)
  let (second, text) ← twoDigits (← expect ':' text)
  if 23 < hour ∨ 59 < minute ∨ 60 < second then none
  else match text with
    | '.' :: rest =>
      if (rest.takeWhile isDigit).isEmpty then none else some (rest.dropWhile isDigit)
    | _ => some text

/-- Nothing, the letter for universal time, or a distance from it. -/
def isOffset : List Char → Bool
  | [] | ['Z'] | ['z'] => true
  | sign :: text =>
    (sign = '+' || sign = '-') &&
      (do
        let (hour, text) ← twoDigits text
        let (minute, text) ← twoDigits (← expect ':' text)
        if hour ≤ 23 ∧ minute ≤ 59 ∧ text.isEmpty then some () else none).isSome

def isDateTime (text : List Char) : Bool :=
  match skipDate text with
  | some [] => true
  | some (mark :: rest) =>
    (mark = 'T' || mark = 't' || mark = ' ') && (skipTime rest).any isOffset
  | none => (skipTime text).any List.isEmpty

/-- The value that a run of scalar characters denotes. -/
def scalar? (text : List Char) : Option Item :=
  if text = ['t', 'r', 'u', 'e'] then some (.boolean true)
  else if text = ['f', 'a', 'l', 's', 'e'] then some (.boolean false)
  else if isDateTime text then some .dateTime
  else match integer? text with
    | some value => some (.integer value)
    | none => (float? text).map .float

end FinalGrades.Toml
