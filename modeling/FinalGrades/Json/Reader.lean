import FinalGrades.Json.Value
import FinalGrades.Text.Taken

/-!
Reading a JSON text. The grammar alone is checked: what a number or a text stands for is left to
whoever takes it out of the value.
-/

namespace FinalGrades.Json

open Text (Taken length_dropWhile_le length_lt_of_eq)

def isSpace (c : Char) : Bool := c = ' ' || c = '\n' || c = '\t' || c = '\r'

def skipSpaces (input : List Char) : List Char := input.dropWhile isSpace

theorem length_skipSpaces_le (input : List Char) : (skipSpaces input).length ≤ input.length :=
  length_dropWhile_le _ _

theorem length_lt_of_skipSpaces {input rest : List Char} {c : Char}
    (h : skipSpaces input = c :: rest) : rest.length < input.length :=
  Nat.lt_of_lt_of_le (length_lt_of_eq h) (length_skipSpaces_le input)

theorem length_scan_le (input : List Char) : (scan input).2.length ≤ input.length := by
  have h := congrArg List.length (scan_append input)
  rw [List.length_append] at h
  exact h ▸ Nat.le_add_left _ _

/-- A text after its opening quote. -/
def readText (input : List Char) : Option (Taken (List Char) input) :=
  match _h : scan input with
  | (written, '"' :: rest) =>
    some ⟨written, rest,
      Nat.lt_of_lt_of_le (length_lt_of_eq (congrArg Prod.snd _h)) (length_scan_le input)⟩
  | _ => none

/-- The longest front of a text that is a number, if there is one. -/
def numberLength? (input : List Char) : Option Nat := do
  let sign := if input.head? = some '-' then 1 else 0
  let whole := (input.drop sign).takeWhile isDigit
  if whole.isEmpty || (whole.head? = some '0' && whole.length != 1) then none
  let afterWhole := input.drop (sign + whole.length)
  let fraction ← match afterWhole with
    | '.' :: rest =>
      let digits := rest.takeWhile isDigit
      if digits.isEmpty then none else some (digits.length + 1)
    | _ => some 0
  let exponent ← match afterWhole.drop fraction with
    | mark :: rest =>
      if mark = 'e' || mark = 'E' then
        let signed := if rest.head? = some '+' || rest.head? = some '-' then 1 else 0
        let digits := (rest.drop signed).takeWhile isDigit
        if digits.isEmpty then none else some (digits.length + signed + 1)
      else some 0
    | [] => some 0
  return sign + whole.length + fraction + exponent

def readNumber (input : List Char) : Option (Taken Json input) := do
  let length ← numberLength? input
  if h : (input.drop length).length < input.length then
    some ⟨.number (input.take length), input.drop length, h⟩
  else none

/-- A word with its value, if the text begins with it. -/
def readWord (spelling : String) (value : Json) (input : List Char) : Option (Taken Json input) :=
  match Text.after? spelling.toList input with
  | some rest =>
    if h : rest.length < input.length then some ⟨value, rest, h⟩ else none
  | none => none

mutual

/-- A value, after any spaces. -/
def readValue (input : List Char) : Option (Taken Json input) :=
  match _h : skipSpaces input with
  | [] => none
  | '"' :: rest =>
    (readText rest).map fun taken =>
      (taken.map .text).widen (Nat.le_of_lt (length_lt_of_skipSpaces _h))
  | '[' :: rest =>
    match _ha : skipSpaces rest with
    | ']' :: after =>
      some ⟨.array [], after,
        Nat.lt_trans (length_lt_of_skipSpaces _ha) (length_lt_of_skipSpaces _h)⟩
    | _ =>
      (readItems rest).map fun taken =>
        (taken.map .array).widen (Nat.le_of_lt (length_lt_of_skipSpaces _h))
  | '\x7b' :: rest =>
    match _ha : skipSpaces rest with
    | '\x7d' :: after =>
      some ⟨.object [], after,
        Nat.lt_trans (length_lt_of_skipSpaces _ha) (length_lt_of_skipSpaces _h)⟩
    | _ =>
      (readFields rest).map fun taken =>
        (taken.map .object).widen (Nat.le_of_lt (length_lt_of_skipSpaces _h))
  | c :: rest =>
    let other : Option (Taken Json (c :: rest)) :=
      if c = 'n' then readWord "null" .null (c :: rest)
      else if c = 't' then readWord "true" (.boolean true) (c :: rest)
      else if c = 'f' then readWord "false" (.boolean false) (c :: rest)
      else readNumber (c :: rest)
    other.map (·.widen (_h ▸ length_skipSpaces_le input))
termination_by (input.length, 0)
decreasing_by
  all_goals exact Prod.Lex.left _ _ (length_lt_of_skipSpaces _h)

/-- The items of an array, at least one, and its closing bracket. -/
def readItems (input : List Char) : Option (Taken (List Json) input) := do
  let item ← readValue input
  match _h : skipSpaces item.rest with
  | ',' :: after => do
    let more ← readItems after
    some ((item.andThen (more.widen (Nat.le_of_lt (length_lt_of_skipSpaces _h)))).map
      (item.value :: ·))
  | ']' :: after =>
    some ⟨[item.value], after, Nat.lt_trans (length_lt_of_skipSpaces _h) item.shorter⟩
  | _ => none
termination_by (input.length, 1)
decreasing_by
  · exact Prod.Lex.right _ (by decide)
  · exact Prod.Lex.left _ _ (Nat.lt_trans (length_lt_of_skipSpaces _h) item.shorter)

/-- The fields of an object, at least one, and its closing brace. -/
def readFields (input : List Char) : Option (Taken (List (List Char × Json)) input) :=
  match _h : skipSpaces input with
  | '"' :: rest => do
    let name ← readText rest
    match _hc : skipSpaces name.rest with
    | ':' :: afterColon => do
      let value ← readValue afterColon
      have hvalue : value.rest.length < name.rest.length :=
        Nat.lt_trans value.shorter (length_lt_of_skipSpaces _hc)
      have hname : name.rest.length < input.length :=
        Nat.lt_trans name.shorter (length_lt_of_skipSpaces _h)
      match _hv : skipSpaces value.rest with
      | ',' :: after => do
        let more ← readFields after
        some ((more.map ((name.value, value.value) :: ·)).widen (Nat.le_of_lt
          (Nat.lt_trans (length_lt_of_skipSpaces _hv) (Nat.lt_trans hvalue hname))))
      | '\x7d' :: after =>
        some ⟨[(name.value, value.value)], after,
          Nat.lt_trans (length_lt_of_skipSpaces _hv) (Nat.lt_trans hvalue hname)⟩
      | _ => none
    | _ => none
  | _ => none
termination_by (input.length, 1)
decreasing_by
  · exact Prod.Lex.left _ _ (Nat.lt_trans (length_lt_of_skipSpaces _hc)
      (Nat.lt_trans name.shorter (length_lt_of_skipSpaces _h)))
  · exact Prod.Lex.left _ _ (Nat.lt_trans (length_lt_of_skipSpaces _hv)
      (Nat.lt_trans hvalue hname))

end

/-- Reads a text that holds one value and spaces. -/
def read? (text : String) : Option Json := do
  let taken ← readValue text.toList
  if (skipSpaces taken.rest).isEmpty then some taken.value else none

end FinalGrades.Json
