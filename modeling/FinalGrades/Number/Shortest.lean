import FinalGrades.Number.Decimal

/-!
The fewest decimal digits that read back to a double. Of the decimals with that many digits the
nearest is taken; which of two equally near ones is a matter of the notation.
-/

namespace FinalGrades

/-- How many decimal digits a number has; zero has none. -/
def digitCount (n : Nat) : Nat :=
  if n = 0 then 0 else digitCount (n / 10) + 1
termination_by n

/-- Which of two equally near decimals is written. -/
inductive Tie where
  | up
  | even
deriving DecidableEq

/-- The number `digits * 10 ^ exponent`. -/
structure Decimal where
  digits : Nat
  exponent : Int
deriving DecidableEq

namespace Decimal

/-- The same number without trailing zeros. -/
def trim (d : Decimal) : Decimal :=
  if h : 0 < d.digits ∧ d.digits % 10 = 0 then trim ⟨d.digits / 10, d.exponent + 1⟩ else d
termination_by d.digits
decreasing_by exact Nat.div_lt_self h.1 (by decide)

/-- The double nearest to the decimal. -/
def toBinary64 (d : Decimal) : Binary64 := Binary64.ofDecimal false d.digits d.exponent

end Decimal

namespace Binary64

/-- The exponent of the leading decimal digit of a positive count of smallest doubles. -/
def leadingExponent (units : Nat) : Int :=
  if unit ≤ units then (digitCount (units / unit) : Int) - 1
  else -(digitCount ((unit + units - 1) / units - 1) : Int)

/-- The count of smallest doubles, divided by ten to the exponent, as a quotient. -/
def scaled (units : Nat) (exponent : Int) : Nat × Nat :=
  match exponent with
  | .ofNat e => (units, unit * Nat.pow 10 e)
  | .negSucc e => (units * Nat.pow 10 (e + 1), unit)

/-- The decimal nearest to `units` among its two neighbours that reads back, if either does. -/
def neighbour? (tie : Tie) (units : Nat) (exponent : Int) : Option Decimal :=
  let (num, den) := scaled units exponent
  let lower : Decimal := ⟨num / den, exponent⟩
  let upper : Decimal := ⟨num / den + 1, exponent⟩
  let readsBack (d : Decimal) : Bool := match d.toBinary64 with
    | .finite _ n _ => n = units
    | _ => false
  let left := 2 * (num % den)
  match readsBack lower, readsBack upper with
  | true, true =>
    if left < den then some lower
    else if den < left then some upper
    else match tie with
      | .up => some upper
      | .even => some (if lower.digits % 2 = 0 then lower else upper)
  | true, false => some lower
  | false, true => some upper
  | false, false => none

/-- Tries ever finer decimal grids; seventeen digits always read back. -/
def shortestFrom (tie : Tie) (units : Nat) (top : Int) (places : Nat) : Nat → Decimal
  | 0 => let (num, den) := scaled units (top - places); ⟨num / den, top - places⟩
  | tries + 1 =>
    match neighbour? tie units (top - places) with
    | some d => d
    | none => shortestFrom tie units top (places + 1) tries

/-- The shortest decimal of a positive count of smallest doubles, without trailing zeros. -/
def shortest (tie : Tie) (units : Nat) : Decimal :=
  (shortestFrom tie units (leadingExponent units) 0 17).trim

end Binary64

end FinalGrades
