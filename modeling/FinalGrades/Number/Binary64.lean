/-!
Double precision numbers as exact integers: a finite one is a sign and a count of the smallest
positive double, 2^-1074. An exact quotient of counts is rounded once, to the nearest double,
and a quotient halfway between two doubles goes to the one with the even significand.
-/

namespace FinalGrades

/-- The whole number nearest to `num / den`; of two equally near, the even one. -/
def nearestEven (num den : Nat) : Nat :=
  let below := num / den
  let left := num % den
  if 2 * left < den then below
  else if den < 2 * left then below + 1
  else below + below % 2

theorem le_nearestEven (num den : Nat) : num / den ≤ nearestEven num den := by
  grind [nearestEven]

theorem nearestEven_le (num den : Nat) : nearestEven num den ≤ num / den + 1 := by
  grind [nearestEven]

namespace Binary64

/-- How many of the smallest doubles make one. -/
def unit : Nat := Nat.pow 2 1074

/-- The first count that is too large for a double. -/
def overflow : Nat := Nat.pow 2 2098

/-- Around `units` the doubles are multiples of two to this power. -/
def gap (units : Nat) : Nat := units.log2 - 52

/-- A double of this magnitude exists: at most 53 significant bits, and below the overflow. -/
def Representable (units : Nat) : Prop :=
  Nat.pow 2 (gap units) ∣ units ∧ units < overflow

instance (units : Nat) : Decidable (Representable units) :=
  inferInstanceAs (Decidable (_ ∧ _))

end Binary64

/-- A double precision number; all undefined results are one value. -/
inductive Binary64 where
  | nan
  | infinite (negative : Bool)
  | finite (negative : Bool) (units : Nat) (representable : Binary64.Representable units)
deriving DecidableEq

namespace Binary64

/-- The multiple of the local gap that is nearest to `num / den`. -/
def roundUnits (num den : Nat) : Nat :=
  let width := Nat.pow 2 (gap (num / den))
  nearestEven num (den * width) * width

theorem significand_le (num den : Nat) :
    nearestEven num (den * Nat.pow 2 (gap (num / den))) ≤ Nat.pow 2 53 := by
  simp only [Nat.pow_eq]
  refine Nat.le_trans (nearestEven_le _ _) ?_
  have hq : num / (den * 2 ^ gap (num / den)) < 2 ^ 53 := by
    rw [← Nat.div_div_eq_div_mul, Nat.div_lt_iff_lt_mul (Nat.two_pow_pos _), ← Nat.pow_add]
    refine Nat.lt_of_lt_of_le (Nat.lt_log2_self (n := num / den)) ?_
    exact Nat.pow_le_pow_right (by decide) (by simp only [gap]; omega)
  omega

theorem le_significand {num den : Nat} (h : gap (num / den) ≠ 0) :
    Nat.pow 2 52 ≤ nearestEven num (den * Nat.pow 2 (gap (num / den))) := by
  simp only [Nat.pow_eq]
  refine Nat.le_trans ?_ (le_nearestEven _ _)
  have hz : num / den ≠ 0 := by
    intro hz
    simp [hz, gap] at h
  rw [← Nat.div_div_eq_div_mul, Nat.le_div_iff_mul_le (Nat.two_pow_pos _), ← Nat.pow_add]
  refine Nat.le_trans ?_ (Nat.log2_self_le hz)
  exact Nat.pow_le_pow_right (by decide) (by simp only [gap] at h ⊢; omega)

theorem log2_mul_pow {n k : Nat} (h : n ≠ 0) : (n * Nat.pow 2 k).log2 = n.log2 + k := by
  rw [Nat.pow_eq, Nat.log2_eq_iff (Nat.mul_ne_zero h (Nat.ne_of_gt (Nat.two_pow_pos k)))]
  constructor
  · rw [Nat.pow_add]
    exact Nat.mul_le_mul_right _ (Nat.log2_self_le h)
  · rw [show n.log2 + k + 1 = (n.log2 + 1) + k by omega, Nat.pow_add]
    exact Nat.mul_lt_mul_of_pos_right Nat.lt_log2_self (Nat.two_pow_pos k)

theorem gap_dvd_roundUnits (num den : Nat) :
    Nat.pow 2 (gap (roundUnits num den)) ∣ roundUnits num den := by
  have hle := significand_le num den
  unfold roundUnits
  dsimp only
  generalize hk : gap (num / den) = k at hle ⊢
  generalize hm : nearestEven num (den * Nat.pow 2 k) = m at hle ⊢
  by_cases hm0 : m = 0
  · simp [hm0]
  rcases Nat.lt_or_eq_of_le hle with hlt | heq
  · refine Nat.dvd_trans (Nat.pow_dvd_pow 2 (n := k) ?_) (Nat.dvd_mul_left _ _)
    have := (Nat.log2_lt hm0).mpr hlt
    rw [gap, log2_mul_pow hm0]
    omega
  · rw [heq]
    simp only [Nat.pow_eq]
    rw [← Nat.pow_add, gap, Nat.log2_two_pow]
    exact Nat.pow_dvd_pow 2 (by omega)

/-- The double nearest to `num / den` smallest doubles, with the given sign. -/
def ofRatio (negative : Bool) (num den : Nat) : Binary64 :=
  if h : roundUnits num den < overflow then
    .finite negative (roundUnits num den) ⟨gap_dvd_roundUnits num den, h⟩
  else .infinite negative

theorem representable_zero : Representable 0 := ⟨Nat.dvd_zero _, by decide +kernel⟩

/-- Zero with a sign. -/
def zero (negative : Bool) : Binary64 := .finite negative 0 representable_zero

/-- The double nearest to a whole number. -/
def ofNat (n : Nat) : Binary64 := ofRatio false (n * unit) 1

instance (n : Nat) : OfNat Binary64 n := ⟨ofNat n⟩

instance : Inhabited Binary64 := ⟨zero false⟩

def isFinite : Binary64 → Bool
  | .finite .. => true
  | _ => false

end Binary64

end FinalGrades
