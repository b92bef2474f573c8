import FinalGrades.Number.Shortest

/-!
How numbers are written: with their shortest digits and no exponent in formulas and messages,
with an exponent outside a middle range in JSON documents, and with two places in tables.
-/

namespace FinalGrades

/-- The decimal digits of a number, at least one. -/
def digitsOf (n : Nat) : List Char := Nat.toDigits 10 n

namespace Decimal

/-- The digits, and how many of them stand before the point; negative when zeros follow it. -/
def pointAt (d : Decimal) : Int := (digitsOf d.digits).length + d.exponent

/-- Digits with the point at its place and no exponent; a whole number has no point. -/
def positional (d : Decimal) : List Char :=
  let digits := digitsOf d.digits
  let point := d.pointAt
  if point ≤ 0 then '0' :: '.' :: (List.replicate (-point).toNat '0' ++ digits)
  else if (digits.length : Int) ≤ point then
    digits ++ List.replicate (point - digits.length).toNat '0'
  else digits.take point.toNat ++ '.' :: digits.drop point.toNat

/-- One digit before the point, and the power of ten after an `e` with its sign. -/
def scientific (d : Decimal) : List Char :=
  let power := d.pointAt - 1
  let mantissa := match digitsOf d.digits with
    | first :: next :: more => first :: '.' :: next :: more
    | single => single
  mantissa ++ 'e' :: (if power < 0 then '-' else '+') :: digitsOf power.natAbs

end Decimal

namespace Binary64

def signText (negative : Bool) : String := if negative then "-" else ""

/-- The shortest digits without an exponent; a tie goes up. -/
def plain : Binary64 → String
  | .nan => "NaN"
  | .infinite s => signText s ++ "inf"
  | .finite s n _ =>
    signText s ++ if n = 0 then "0" else String.ofList (shortest .up n).positional

instance : ToString Binary64 := ⟨plain⟩

/--
The shortest digits as JSON documents hold them: positional from 10^-5 up to 10^16 with at least
one place, else with an exponent; a tie goes to the even digit. JSON has no undefined numbers.
-/
def json : Binary64 → String
  | .nan | .infinite _ => "null"
  | .finite s n _ =>
    signText s ++
      if n = 0 then "0.0"
      else
        let d := shortest .even n
        if d.pointAt ≤ -5 || 16 < d.pointAt then String.ofList d.scientific
        else
          let text := d.positional
          String.ofList (if text.contains '.' then text else text ++ ['.', '0'])

/-- Two places, the last rounded to the nearest of the exact value and a half to even. -/
def twoPlaces : Binary64 → String
  | .nan => "NaN"
  | .infinite s => signText s ++ "inf"
  | .finite s n _ =>
    let cents := nearestEven (n * 100) unit
    let places := digitsOf (cents % 100)
    signText s ++ String.ofList
      (digitsOf (cents / 100) ++ '.' :: (if places.length < 2 then '0' :: places else places))

end Binary64

end FinalGrades
