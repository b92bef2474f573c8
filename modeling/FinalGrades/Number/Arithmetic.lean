import FinalGrades.Number.Binary64

/-!
Arithmetic on doubles. Every operation takes the exact result and rounds it once; zeros keep a
sign, infinities follow the limits, and an operation without a limit gives `nan`.
-/

namespace FinalGrades.Binary64

/-- The exact value in smallest doubles. -/
def signed (negative : Bool) (units : Nat) : Int :=
  if negative then -(units : Int) else units

def isNaN : Binary64 → Bool
  | .nan => true
  | _ => false

def neg : Binary64 → Binary64
  | .nan => .nan
  | .infinite s => .infinite (!s)
  | .finite s n h => .finite (!s) n h

/-- Opposite infinities have no sum; an exact zero is negative only if both zeros are. -/
def add : Binary64 → Binary64 → Binary64
  | .nan, _ | _, .nan => .nan
  | .infinite s, .infinite t => if s = t then .infinite s else .nan
  | .infinite s, .finite .. => .infinite s
  | .finite .., .infinite t => .infinite t
  | .finite s m _, .finite t n _ =>
    let total := signed s m + signed t n
    if total = 0 then zero (s && t) else ofRatio (decide (total < 0)) total.natAbs 1

/-- Zero times an infinity is undefined. -/
def mul : Binary64 → Binary64 → Binary64
  | .nan, _ | _, .nan => .nan
  | .infinite s, .infinite t => .infinite (s != t)
  | .infinite s, .finite t n _ | .finite t n _, .infinite s =>
    if n = 0 then .nan else .infinite (s != t)
  | .finite s m _, .finite t n _ => ofRatio (s != t) (m * n) unit

/-- A nonzero number over zero is infinite; zero over zero is undefined. -/
def div : Binary64 → Binary64 → Binary64
  | .nan, _ | _, .nan => .nan
  | .infinite _, .infinite _ => .nan
  | .infinite s, .finite t _ _ => .infinite (s != t)
  | .finite s _ _, .infinite t => zero (s != t)
  | .finite s m _, .finite t n _ =>
    if n = 0 then (if m = 0 then .nan else .infinite (s != t))
    else ofRatio (s != t) (m * unit) n

instance : Neg Binary64 := ⟨neg⟩
instance : Add Binary64 := ⟨add⟩
instance : Sub Binary64 := ⟨fun x y => x + -y⟩
instance : Mul Binary64 := ⟨mul⟩
instance : Div Binary64 := ⟨div⟩

/-- Strictly below; never so when either side is undefined. -/
def below : Binary64 → Binary64 → Bool
  | .nan, _ | _, .nan => false
  | .infinite s, .infinite t => s && !t
  | .infinite s, .finite .. => s
  | .finite .., .infinite t => !t
  | .finite s m _, .finite t n _ => decide (signed s m < signed t n)

instance : LT Binary64 := ⟨fun x y => below x y = true⟩
instance (x y : Binary64) : Decidable (x < y) := inferInstanceAs (Decidable (_ = true))

/-- At most; both zeros are equal, and an undefined number is below nothing, itself included. -/
def atMost : Binary64 → Binary64 → Bool
  | .nan, _ | _, .nan => false
  | .infinite s, .infinite t => s || !t
  | .infinite s, .finite .. => s
  | .finite .., .infinite t => !t
  | .finite s m _, .finite t n _ => decide (signed s m ≤ signed t n)

instance : LE Binary64 := ⟨fun x y => atMost x y = true⟩
instance (x y : Binary64) : Decidable (x ≤ y) := inferInstanceAs (Decidable (_ = true))

/-- The sum from the left; the empty sum is negative zero, which adds nothing to any number. -/
def sum (xs : List Binary64) : Binary64 := xs.foldl (· + ·) (zero true)

/-- The smaller number, the first of two equal ones; an undefined one gives way. -/
def min (x y : Binary64) : Binary64 :=
  if x.isNaN then y else if y < x then y else x

/-- The larger number, the first of two equal ones; an undefined one gives way. -/
def max (x y : Binary64) : Binary64 :=
  if x.isNaN then y else if x < y then y else x

/-- Moves a number into the range; an undefined one stays. -/
def clamp (low high x : Binary64) : Binary64 :=
  let raised := if x < low then low else x
  if high < raised then high else raised

/-- The greatest whole number that is not above. -/
def floor : Binary64 → Binary64
  | .finite s n _ => ofRatio s ((if s then (n + (unit - 1)) / unit else n / unit) * unit) 1
  | x => x

/-- The nearest whole number; a half goes away from zero. -/
def round : Binary64 → Binary64
  | .finite s n _ => ofRatio s ((2 * n + unit) / (2 * unit) * unit) 1
  | x => x

/-- Multiplies `acc` by `base` to the power, squaring the base from bit to bit. -/
def squareMultiply (acc base : Binary64) (power : Nat) : Binary64 :=
  let acc := if power % 2 = 1 then acc * base else acc
  if power < 2 then acc else squareMultiply acc (base * base) (power / 2)
termination_by power

/-- A power by squaring; a negative one is the reciprocal of the positive one. -/
def power (base : Binary64) (exponent : Int) : Binary64 :=
  let whole := squareMultiply 1 base exponent.natAbs
  if exponent < 0 then 1 / whole else whole

end FinalGrades.Binary64
