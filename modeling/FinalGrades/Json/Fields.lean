import FinalGrades.Json.Reader
import FinalGrades.Keyed
import FinalGrades.Number.Arithmetic

/-!
Taking typed values out of JSON. Unknown fields of an object are passed over, a known one may not
come twice, and an array may stand for an object whose fields come in a known order.
-/

namespace FinalGrades.Json

def text? : Json → Option String
  | .text written => (decode? written).map String.ofList
  | _ => none

def boolean? : Json → Option Bool
  | .boolean value => some value
  | _ => none

def character? (value : Json) : Option Char :=
  match (text? value).map String.toList with
  | some [c] => some c
  | _ => none

def wordLimit : Nat := Nat.pow 2 64

/-- A whole number of 64 bits without a sign. -/
def count? : Json → Option Nat
  | .number written =>
    if written.all isDigit then
      let value := digitsValue 0 written
      if value < wordLimit then some value else none
    else none
  | _ => none

/-- The whole digits that fit in 64 bits, and how many digits come after those. -/
def gatherWhole (high : Nat) : List Char → Nat × Nat
  | [] => (high, 0)
  | c :: rest =>
    let next := 10 * high + digitValue c
    if next < wordLimit then gatherWhole next rest else (high, rest.length + 1)

/-- The digits after the point as long as they fit in 64 bits, and how many those are. -/
def gatherFraction (high : Nat) : List Char → Nat × Nat
  | [] => (high, 0)
  | c :: rest =>
    let next := 10 * high + digitValue c
    if next < wordLimit then
      let (value, taken) := gatherFraction next rest
      (value, taken + 1)
    else (high, 0)

/-- Divides by a power of ten, in steps if the power is no double. -/
def shrink (value : Binary64) (power : Nat) : Binary64 :=
  if power ≤ 308 then value / Binary64.ofDecimal false 1 power
  else if value = 0 then value
  else shrink (value / Binary64.ofDecimal false 1 308) (power - 308)
termination_by power

/-- Multiplies by a power of ten, unless the result is too large. -/
def grow? (value : Binary64) (power : Nat) : Option Binary64 :=
  if value = 0 then some value
  else if power ≤ 308 then
    let product := value * Binary64.ofDecimal false 1 power
    if product.isFinite then some product else none
  else none

def scale? (value : Binary64) : Int → Option Binary64
  | .ofNat power => grow? value power
  | .negSucc power => some (shrink value (power + 1))

/-- The parts of a written number after its sign. -/
def splitNumber (written : List Char) : List Char × List Char × List Char :=
  let whole := written.takeWhile isDigit
  let afterWhole := written.drop whole.length
  match afterWhole with
  | '.' :: rest => (whole, rest.takeWhile isDigit, rest.dropWhile isDigit)
  | _ => (whole, [], afterWhole)

/-- The largest exponent that is kept as a number. -/
def exponentLimit : Nat := Nat.pow 2 31 - 1

/--
A double: the digits that fit in 64 bits, rounded to a double, and then one step for the powers of
ten. Numbers that overflow are refused.
-/
def number? : Json → Option Binary64
  | .number written => do
    let (negative, body) := match written with
      | '-' :: rest => (true, rest)
      | _ => (false, written)
    let (whole, fraction, exponentPart) := splitNumber body
    let (high, dropped) := gatherWhole 0 whole
    let (significand, taken) := gatherFraction high fraction
    let start : Int := dropped - taken
    let signed (value : Binary64) : Binary64 := if negative then -value else value
    match exponentPart with
    | [] => return signed (← scale? (Binary64.ofNat significand) start)
    | _ :: rest =>
      let (down, digits) := Binary64.splitSign rest
      let exponent := digitsValue 0 digits
      if exponentLimit < exponent then
        if significand = 0 ∨ down then return Binary64.zero negative else none
      else
        return signed (← scale? (Binary64.ofNat significand)
          (if down then start - exponent else start + exponent))
  | _ => none

def list? {α : Type} (read : Json → Option α) : Json → Option (List α)
  | .array items => items.mapM read
  | _ => none

def nullable? {α : Type} (read : Json → Option α) : Json → Option (Option α)
  | .null => some none
  | value => (read value).map some

/-- An object as a map; of two fields with one name the later counts. -/
def keyed? {α : Type} (read : Json → Option α) : Json → Option (Keyed α)
  | .object fields => do
    return Keyed.ofList (← fields.mapM fun (name, value) => do
      return (String.ofList (← decode? name), ← read value))
  | _ => none

/-- The entries of a map as fields, in the order of their names. -/
def ofKeyed {α : Type} (write : α → Json) (map : Keyed α) : Json :=
  ofFields (map.entries.map fun (name, value) => (name, write value))

/-- One of several words, as a text or as the only name of an object with a null. -/
def choice? {α : Type} (words : List (String × α)) : Json → Option α
  | .text written => do words.lookup (String.ofList (← decode? written))
  | .object [(written, .null)] => do words.lookup (String.ofList (← decode? written))
  | _ => none

/-- Named fields; in an array they come without their names. -/
structure Fields where
  entries : List (String × Json)
  inOrder : Bool

namespace Fields

/-- The fields of an object or an array, of which only those in `order` are known. -/
def of? (order : List String) : Json → Option Fields
  | .object fields => do
    let named ← fields.mapM fun (name, value) => do return (String.ofList (← decode? name), value)
    let known := named.filter fun field => order.contains field.1
    if (known.map (·.1)).eraseDups.length = known.length then some ⟨known, false⟩ else none
  | .array items => if items.length ≤ order.length then some ⟨order.zip items, true⟩ else none
  | _ => none

variable {α : Type}

def required? (fields : Fields) (name : String) (read : Json → Option α) : Option α := do
  read (← fields.entries.lookup name)

/-- A field with a value of its own for when it is missing. -/
def withDefault? (fields : Fields) (name : String) (default : α) (read : Json → Option α) :
    Option α :=
  match fields.entries.lookup name with
  | some value => read value
  | none => some default

/-- A field that may be null, or missing from an object. -/
def orNull? (fields : Fields) (name : String) (read : Json → Option α) : Option (Option α) :=
  match fields.entries.lookup name with
  | some value => nullable? read value
  | none => if fields.inOrder then none else some none

end Fields

end FinalGrades.Json
