/-!
Texts in JSON, between their quotes. Quotes, backslashes and control characters are written as
escapes; a character may also be read from the number of it, or of the two halves that UTF-16
makes of it.
-/

namespace FinalGrades.Json

/-- The characters with an escape of one letter or sign, both ways. -/
def escapeLetter? (c : Char) : Option Char :=
  if c = '"' ∨ c = '\\' then some c
  else if c = '\x08' then some 'b'
  else if c = '\x0c' then some 'f'
  else if c = '\n' then some 'n'
  else if c = '\r' then some 'r'
  else if c = '\t' then some 't'
  else none

def escapedChar? (letter : Char) : Option Char :=
  if letter = '"' ∨ letter = '\\' ∨ letter = '/' then some letter
  else if letter = 'b' then some '\x08'
  else if letter = 'f' then some '\x0c'
  else if letter = 'n' then some '\n'
  else if letter = 'r' then some '\r'
  else if letter = 't' then some '\t'
  else none

def hexDigit (n : Nat) : Char := if n < 10 then Char.ofNat (48 + n) else Char.ofNat (87 + n)

def hexValue? (c : Char) : Option Nat :=
  if '0' ≤ c ∧ c ≤ '9' then some (c.toNat - 48)
  else if 'a' ≤ c ∧ c ≤ 'f' then some (c.toNat - 87)
  else if 'A' ≤ c ∧ c ≤ 'F' then some (c.toNat - 55)
  else none

/-- The number that four hexadecimal digits spell. -/
def unit? (a b c d : Char) : Option Nat := do
  return 4096 * (← hexValue? a) + 256 * (← hexValue? b) + 16 * (← hexValue? c) + (← hexValue? d)

/-- How a character is written. -/
def encodeChar (c : Char) : List Char :=
  match escapeLetter? c with
  | some letter => ['\\', letter]
  | none =>
    if c.toNat < 0x20 then
      ['\\', 'u', '0', '0', hexDigit (c.toNat / 16), hexDigit (c.toNat % 16)]
    else [c]

def encode (text : List Char) : List Char := text.flatMap encodeChar

def isHighHalf (unit : Nat) : Bool := 0xD800 ≤ unit && unit < 0xDC00

def isLowHalf (unit : Nat) : Bool := 0xDC00 ≤ unit && unit < 0xE000

/-- The character that was cut into two halves. -/
def joinHalves (high low : Nat) : Char :=
  Char.ofNat (0x10000 + (high - 0xD800) * 0x400 + (low - 0xDC00))

/-- Undoes the escapes; half of a character alone stands for nothing. -/
def decode? : List Char → Option (List Char)
  | [] => some []
  | '\\' :: 'u' :: a :: b :: c :: d :: rest => do
    let first ← unit? a b c d
    if isLowHalf first then none
    else if isHighHalf first then
      match rest with
      | '\\' :: 'u' :: e :: f :: g :: h :: rest => do
        let second ← unit? e f g h
        if isLowHalf second then return joinHalves first second :: (← decode? rest) else none
      | _ => none
    else return Char.ofNat first :: (← decode? rest)
  | '\\' :: letter :: rest => do return (← escapedChar? letter) :: (← decode? rest)
  | '\\' :: [] => none
  | c :: rest => if c = '"' ∨ c.toNat < 0x20 then none else do return c :: (← decode? rest)

/-- The longest text from the front that is written as it must be, with escapes left as they are. -/
def scan : List Char → List Char × List Char
  | '\\' :: 'u' :: a :: b :: c :: d :: rest =>
    if (unit? a b c d).isSome then
      let (written, rest) := scan rest
      ('\\' :: 'u' :: a :: b :: c :: d :: written, rest)
    else ([], '\\' :: 'u' :: a :: b :: c :: d :: rest)
  | '\\' :: letter :: rest =>
    if (escapedChar? letter).isSome then
      let (written, rest) := scan rest
      ('\\' :: letter :: written, rest)
    else ([], '\\' :: letter :: rest)
  | c :: rest =>
    if c = '"' ∨ c = '\\' ∨ c.toNat < 0x20 then ([], c :: rest)
    else
      let (written, rest) := scan rest
      (c :: written, rest)
  | [] => ([], [])

theorem scan_append (text : List Char) : (scan text).1 ++ (scan text).2 = text := by
  fun_induction scan text <;> simp_all

end FinalGrades.Json
