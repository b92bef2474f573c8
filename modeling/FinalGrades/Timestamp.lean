import FinalGrades.Number.Notation
import FinalGrades.Text.Blank

/-!
Points in time, to the nanosecond, in universal time. They are written as RFC 3339 has it; texts
to be read may use single digits and have blanks between their parts.
-/

namespace FinalGrades

/-- A day of the Gregorian calendar. -/
structure Day where
  year : Int
  month : Nat
  day : Nat
deriving DecidableEq

namespace Day

def isLeapYear (year : Int) : Bool := year % 4 = 0 && (year % 100 != 0 || year % 400 = 0)

def daysInMonth (year : Int) (month : Nat) : Nat :=
  if month = 2 then (if isLeapYear year then 29 else 28)
  else if month = 4 ∨ month = 6 ∨ month = 9 ∨ month = 11 then 30
  else 31

/-- The years that can be told. -/
def inRange (year : Int) : Bool := -262143 ≤ year && year ≤ 262142

def isValid (day : Day) : Bool :=
  inRange day.year && 1 ≤ day.month && day.month ≤ 12 && 1 ≤ day.day &&
    day.day ≤ daysInMonth day.year day.month

def next (day : Day) : Day :=
  if day.day < daysInMonth day.year day.month then { day with day := day.day + 1 }
  else if day.month < 12 then ⟨day.year, day.month + 1, 1⟩
  else ⟨day.year + 1, 1, 1⟩

def previous (day : Day) : Day :=
  if 1 < day.day then { day with day := day.day - 1 }
  else if 1 < day.month then ⟨day.year, day.month - 1, daysInMonth day.year (day.month - 1)⟩
  else ⟨day.year - 1, 12, 31⟩

end Day

def secondsPerDay : Nat := 86400

def nanosPerSecond : Nat := 1000000000

/--
A second of a day in universal time and the nanoseconds since it began; during a leap second
these are more than a whole second.
-/
structure Timestamp where
  day : Day
  second : Nat
  nanos : Nat
deriving DecidableEq

namespace Timestamp

/-- The day so many days after the first of 1970. -/
def dayAfter (days : Nat) : Day := Nat.repeat Day.next days ⟨1970, 1, 1⟩

/-- The time so many nanoseconds after the beginning of 1970. -/
def ofNanos (nanos : Nat) : Timestamp :=
  let seconds := nanos / nanosPerSecond
  ⟨dayAfter (seconds / secondsPerDay), seconds % secondsPerDay, nanos % nanosPerSecond⟩

/-- The digits of a number with zeros before them up to a width. -/
def padded (width n : Nat) : List Char :=
  let digits := digitsOf n
  List.replicate (width - digits.length) '0' ++ digits

/-- Years with other than four digits have a sign. -/
def yearText (year : Int) : List Char :=
  if 0 ≤ year ∧ year ≤ 9999 then padded 4 year.natAbs
  else (if year < 0 then '-' else '+') :: padded 4 year.natAbs

/-- As many groups of three digits as the fraction needs. -/
def fractionText (nanos : Nat) : List Char :=
  if nanos = 0 then []
  else if nanos % 1000000 = 0 then '.' :: padded 3 (nanos / 1000000)
  else if nanos % 1000 = 0 then '.' :: padded 6 (nanos / 1000)
  else '.' :: padded 9 nanos

def write (time : Timestamp) : String :=
  String.ofList (yearText time.day.year ++ '-' :: padded 2 time.day.month ++
    '-' :: padded 2 time.day.day ++ 'T' :: padded 2 (time.second / 3600) ++
    ':' :: padded 2 (time.second / 60 % 60) ++
    ':' :: padded 2 (time.second % 60 + time.nanos / nanosPerSecond) ++
    fractionText (time.nanos % nanosPerSecond) ++ ['Z'])

def skipBlanks (text : List Char) : List Char := text.dropWhile Text.isBlank

/-- A number of at least one and at most `width` digits, after blanks. -/
def readNumber (width : Nat) (text : List Char) : Option (Nat × List Char) :=
  let body := skipBlanks text
  let digits := (body.take width).takeWhile isDigit
  if digits.isEmpty then none else some (digitsValue 0 digits, body.drop digits.length)

/-- A year of up to four digits, or of any number of them after a sign. -/
def readYear (text : List Char) : Option (Int × List Char) :=
  match skipBlanks text with
  | sign :: rest =>
    if sign = '-' ∨ sign = '+' then
      let digits := rest.takeWhile isDigit
      if digits.isEmpty then none
      else
        let n : Int := digitsValue 0 digits
        some (if sign = '-' then -n else n, rest.drop digits.length)
    else (readNumber 4 (sign :: rest)).map fun (n, rest) => ((n : Int), rest)
  | [] => none

/-- What follows a separator, after blanks. -/
def afterMark (mark : Char) (text : List Char) : Option (List Char) :=
  match skipBlanks text with
  | c :: rest => if c = mark then some rest else none
  | [] => none

def readDay (text : List Char) : Option (Day × List Char) := do
  let (year, text) ← readYear text
  let (month, text) ← readNumber 2 (← afterMark '-' text)
  let (day, text) ← readNumber 2 (← afterMark '-' text)
  let date : Day := ⟨year, month, day⟩
  if date.isValid then some (date, text) else none

/-- The nanoseconds of a fraction; digits after the ninth are passed over. -/
def readFraction (text : List Char) : Option (Nat × List Char) :=
  match text with
  | '.' :: rest =>
    let digits := rest.takeWhile isDigit
    if digits.isEmpty then none
    else
      let kept := digits.take 9
      some (digitsValue 0 kept * Nat.pow 10 (9 - kept.length), rest.drop digits.length)
  | _ => some (0, text)

/-- The second of the day and the nanoseconds; second 60 lengthens the one before it. -/
def readClock (text : List Char) : Option (Nat × Nat × List Char) := do
  let (hour, text) ← readNumber 2 text
  let (minute, text) ← readNumber 2 (← afterMark ':' text)
  let (second, text) ← readNumber 2 (← afterMark ':' text)
  let (nanos, text) ← readFraction text
  if 23 < hour ∨ 59 < minute ∨ 60 < second then none
  else
    let leap := if second = 60 then 1 else 0
    some (3600 * hour + 60 * minute + (second - leap), nanos + leap * nanosPerSecond, text)

/-- Two digits; the blanks before them are not passed over. -/
def readPair : List Char → Option (Nat × List Char)
  | a :: b :: rest =>
    if isDigit a && isDigit b then some (10 * digitValue a + digitValue b, rest) else none
  | _ => none

/-- The distance from universal time in seconds. -/
def readOffset (text : List Char) : Option (Int × List Char) :=
  match text with
  | [] => none
  | c :: rest =>
    if c = 'Z' ∨ c = 'z' then some (0, rest)
    else if String.ofList ((text.take 3).map Char.toLower) = "utc" then some (0, text.drop 3)
    else if c = '+' ∨ c = '-' ∨ c = '−' then do
      let (hours, rest) ← readPair rest
      let (minutes, rest) ← readPair (rest.dropWhile fun d => d = ':' || Text.isBlank d)
      let seconds := 3600 * hours + 60 * minutes
      if 59 < minutes ∨ secondsPerDay ≤ seconds then none
      else some (if c = '+' then seconds else -(seconds : Int), rest)
    else none

/-- Moves a local time to universal time. -/
def toUniversal (day : Day) (second : Nat) (offset : Int) : Day × Nat :=
  let shifted := (second : Int) - offset
  if shifted < 0 then (day.previous, (shifted + secondsPerDay).toNat)
  else if (secondsPerDay : Int) ≤ shifted then (day.next, (shifted - secondsPerDay).toNat)
  else (day, shifted.toNat)

def read? (text : String) : Option Timestamp := do
  let (day, rest) ← readDay text.toList
  let rest ← match rest with
    | c :: rest => if c = 'T' ∨ c = 't' ∨ c = ' ' then some rest else none
    | [] => none
  let (second, nanos, rest) ← readClock rest
  let (offset, rest) ← readOffset (skipBlanks rest)
  let (day, second) := toUniversal day second offset
  if (skipBlanks rest).isEmpty ∧ Day.inRange day.year then some ⟨day, second, nanos⟩ else none

end Timestamp

end FinalGrades
