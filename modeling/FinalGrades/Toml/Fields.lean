import FinalGrades.Keyed
import FinalGrades.Toml.Reader

/-!
Taking typed fields out of a TOML table. Fields that nobody asks for are passed over, and an array
may stand for a table whose fields come in a known order.
-/

namespace FinalGrades.Toml

/-- Why a text does not hold the wanted fields. -/
inductive FieldError where
  | notToml
  | missing (field : String)
  | unfit (field : String)
  | unfitValue
deriving DecidableEq

namespace FieldError

def message : FieldError → String
  | .notToml => "TOML parse error: not a TOML document"
  | .missing field => s!"TOML parse error: missing field '{field}'"
  | .unfit field => s!"TOML parse error: unfit value for field '{field}'"
  | .unfitValue => "TOML parse error: unfit value"

end FieldError

structure Fields where
  entries : Entries

namespace Fields

def ofText (text : String) : Except FieldError Fields :=
  match read? text with
  | some entries => .ok ⟨entries⟩
  | none => .error .notToml

/-- The fields of a table, or of an array that has them in the given order. -/
def ofItem (order : List String) (item : Item) : Except FieldError Fields :=
  match item.entries?, item.elements? with
  | some entries, _ => .ok ⟨entries⟩
  | none, some elements => .ok ⟨order.zip elements⟩
  | none, none => .error .unfitValue

variable {α : Type}

def optional (fields : Fields) (name : String) (read : Item → Except FieldError α) :
    Except FieldError (Option α) :=
  match fields.entries.lookup name with
  | none => .ok none
  | some item =>
    match read item with
    | .ok value => .ok (some value)
    | .error .unfitValue => .error (.unfit name)
    | .error error => .error error

def required (fields : Fields) (name : String) (read : Item → Except FieldError α) :
    Except FieldError α := do
  match ← fields.optional name read with
  | some value => return value
  | none => throw (.missing name)

end Fields

def text : Item → Except FieldError String
  | .text value => .ok value
  | _ => .error .unfitValue

def boolean : Item → Except FieldError Bool
  | .boolean value => .ok value
  | _ => .error .unfitValue

/-- A float, or the float nearest to an integer. -/
def number : Item → Except FieldError Binary64
  | .float value => .ok value
  | .integer value =>
    .ok (Binary64.ofRatio (decide (value < 0)) (value.natAbs * Binary64.unit) 1)
  | _ => .error .unfitValue

def count : Item → Except FieldError Nat
  | .integer value => if value < 0 then .error .unfitValue else .ok value.toNat
  | _ => .error .unfitValue

def character (item : Item) : Except FieldError Char := do
  match (← text item).toList with
  | [c] => return c
  | _ => throw .unfitValue

def list {α : Type} (read : Item → Except FieldError α) (item : Item) :
    Except FieldError (List α) :=
  match item.elements? with
  | some elements => elements.mapM read
  | none => .error .unfitValue

/-- A table of numbers by name. -/
def numbers (item : Item) : Except FieldError (Keyed Binary64) :=
  match item.entries? with
  | none => .error .unfitValue
  | some entries => do
    return Keyed.ofList (← entries.mapM fun (name, value) => do return (name, ← number value))

/-- One of several words, as a string or as the only key of a table with an empty value. -/
def choice {α : Type} (words : List (String × α)) (item : Item) : Except FieldError α := do
  let word ← match item, item.entries? with
    | .text word, _ => pure word
    | _, some [(word, inside)] =>
      match inside.entries?, inside.elements? with
      | some [], _ | _, some [] => pure word
      | _, _ => throw .unfitValue
    | _, _ => throw .unfitValue
  match words.lookup word with
  | some value => return value
  | none => throw .unfitValue

end FinalGrades.Toml
