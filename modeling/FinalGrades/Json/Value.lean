import FinalGrades.Json.Text
import FinalGrades.Number.Notation

/-!
JSON values, with texts and numbers kept as they are written, and their two layouts: on one line,
and with one element to a line.
-/

namespace FinalGrades

inductive Json where
  | null
  | boolean (value : Bool)
  | number (written : List Char)
  | text (written : List Char)
  | array (items : List Json)
  | object (fields : List (List Char × Json))

namespace Json

def ofString (value : String) : Json := .text (encode value.toList)

def ofNat (value : Nat) : Json := .number (digitsOf value)

/-- A number; those that JSON does not have become null. -/
def ofNumber (value : Binary64) : Json :=
  if value.isFinite then .number value.json.toList else .null

def ofOption {α : Type} (write : α → Json) : Option α → Json
  | some value => write value
  | none => .null

def ofList {α : Type} (write : α → Json) (values : List α) : Json := .array (values.map write)

/-- An object with fields of the given names. -/
def ofFields (fields : List (String × Json)) : Json :=
  .object (fields.map fun (name, value) => (encode name.toList, value))

def quote (written : List Char) : List Char := '"' :: written ++ ['"']

def word (text : String) : List Char := text.toList

/-- A new line, two spaces in for each level. -/
def lineBreak (level : Nat) : List Char := '\n' :: List.replicate (2 * level) ' '

mutual

/-- The value on one line, without spaces. -/
def compact : Json → List Char
  | .null => word "null"
  | .boolean value => word (if value then "true" else "false")
  | .number written => written
  | .text written => quote written
  | .array items => '[' :: compactItems items ++ [']']
  | .object fields => '\x7b' :: compactFields fields ++ ['\x7d']
termination_by structural value => value

def compactItems : List Json → List Char
  | [] => []
  | [item] => item.compact
  | item :: rest => item.compact ++ ',' :: compactItems rest
termination_by structural items => items

def compactFields : List (List Char × Json) → List Char
  | [] => []
  | [field] => compactField field
  | field :: rest => compactField field ++ ',' :: compactFields rest
termination_by structural fields => fields

def compactField : List Char × Json → List Char
  | (name, value) => quote name ++ ':' :: value.compact
termination_by structural field => field

end

mutual

/-- The value at a level of nesting, with every element on a line of its own. -/
def pretty (level : Nat) : Json → List Char
  | .null => word "null"
  | .boolean value => word (if value then "true" else "false")
  | .number written => written
  | .text written => quote written
  | .array [] => ['[', ']']
  | .array items => '[' :: prettyItems (level + 1) items ++ lineBreak level ++ [']']
  | .object [] => ['\x7b', '\x7d']
  | .object fields => '\x7b' :: prettyFields (level + 1) fields ++ lineBreak level ++ ['\x7d']
termination_by structural value => value

def prettyItems (level : Nat) : List Json → List Char
  | [] => []
  | [item] => lineBreak level ++ item.pretty level
  | item :: rest => lineBreak level ++ item.pretty level ++ ',' :: prettyItems level rest
termination_by structural items => items

def prettyFields (level : Nat) : List (List Char × Json) → List Char
  | [] => []
  | [field] => lineBreak level ++ prettyField level field
  | field :: rest => lineBreak level ++ prettyField level field ++ ',' :: prettyFields level rest
termination_by structural fields => fields

def prettyField (level : Nat) : List Char × Json → List Char
  | (name, value) => quote name ++ ':' :: ' ' :: value.pretty level
termination_by structural field => field

end

end Json

end FinalGrades
