import FinalGrades.Proofs.Number.Nearest

/-!
Where rounding leaves the doubles. From halfway between the greatest double and the next power of
two on, a quotient is rounded to infinity, and below that to the nearest double. So a decimal is
rounded correctly, however large it is.
-/

namespace FinalGrades

theorem nearestEven_le_of_lt {num den n : Nat} (hden : 0 < den) (h : 2 * num < (2 * n + 1) * den) :
    nearestEven num den ≤ n := by
  have hsplit := Nat.div_add_mod num den
  have hmod := Nat.mod_lt num hden
  rw [Nat.mul_comm] at hsplit
  rw [Nat.add_mul, Nat.mul_assoc] at h
  have hle : num / den ≤ n := by
    rw [← Nat.lt_succ_iff, Nat.div_lt_iff_lt_mul hden, Nat.succ_mul]
    omega
  rcases Nat.lt_or_eq_of_le hle with hlt | heq
  · exact Nat.le_trans (nearestEven_le num den) hlt
  · rw [heq] at hsplit
    have hnear : 2 * (num % den) < den := by omega
    simp only [nearestEven, hnear, if_true, heq, Nat.le_refl]

namespace Binary64

variable {num den : Nat}

/-- How far apart the greatest doubles are. -/
def widest : Nat := Nat.pow 2 2045

/-- Halfway between the greatest finite double and the next power of two. -/
def threshold : Nat := overflow - widest / 2

theorem threshold_le_two_pow : threshold ≤ 2 ^ 2098 := by
  unfold threshold overflow
  generalize 2098 = top
  exact Nat.sub_le _ _

theorem overflow_le_roundUnits_threshold : overflow ≤ roundUnits threshold 1 := by
  decide +kernel

theorem widest_pos : 0 < widest := by decide +kernel

theorem threshold_mul_two : 2 * threshold = (2 * (2 ^ 53 - 1) + 1) * widest := by
  decide +kernel

theorem greatest_lt_overflow : (2 ^ 53 - 1) * widest < overflow := by
  decide +kernel

theorem nearestEven_le_of_lt_threshold {width last : Nat} (hden : 0 < den) (hwidth : 0 < width)
    (hhalf : 2 * threshold = (2 * last + 1) * width) (h : num < threshold * den) :
    nearestEven num (den * width) ≤ last := by
  refine nearestEven_le_of_lt (Nat.mul_pos hden hwidth) ?_
  calc 2 * num < 2 * (threshold * den) := Nat.mul_lt_mul_of_pos_left h (by decide)
    _ = (2 * last + 1) * (den * width) := by
      rw [← Nat.mul_assoc, hhalf, Nat.mul_assoc, Nat.mul_comm width]

/-- Below the halfway point the last significand is not passed, and from it on it always is. -/
theorem roundUnits_lt_overflow_iff (hden : 0 < den) :
    roundUnits num den < overflow ↔ num < threshold * den := by
  constructor
  · intro hlt
    by_contra hge
    have hmono : roundUnits threshold 1 ≤ roundUnits num den :=
      roundUnits_mono Nat.one_pos hden (by omega)
    exact absurd hlt (Nat.not_lt.mpr (Nat.le_trans overflow_le_roundUnits_threshold hmono))
  · intro hlt
    by_cases hlow : (num / den).log2 < 2097
    · exact Nat.lt_of_le_of_lt (roundUnits_le_two_pow Nat.lt_log2_self)
        (two_pow_lt_overflow (by omega))
    · have hbelow : num / den < 2 ^ 2098 :=
        Nat.lt_of_lt_of_le ((Nat.div_lt_iff_lt_mul hden).mpr hlt) threshold_le_two_pow
      have hzero : num / den ≠ 0 := fun hzero => hlow (by rw [hzero]; decide)
      have hhigh := (Nat.log2_lt hzero).mpr hbelow
      have hgap : gap (num / den) = 2045 := by
        unfold gap
        omega
      have hwidth : Nat.pow 2 (gap (num / den)) = widest := by
        unfold widest
        generalize 2045 = top at hgap ⊢
        rw [hgap]
      have hround := nearestEven_le_of_lt_threshold hden widest_pos threshold_mul_two hlt
      rw [roundUnits, hwidth]
      exact Nat.lt_of_le_of_lt (Nat.mul_le_mul_right widest hround) greatest_lt_overflow

/--
A number without a sign, rounded to a double: to the nearest one, or to infinity where the greatest
double is no nearer than the next power of two.
-/
structure IsRounded (x : Binary64) (q : ℚ) : Prop where
  nearest : q < 2 ^ 1024 - 2 ^ 970 → x.IsNearest q ∧ ∃ n hn, x = .finite false n hn
  infinite : 2 ^ 1024 - 2 ^ 970 ≤ q → x = .infinite false

theorem cast_of_pow_mul_unit {k n : Nat} (h : Nat.pow 2 k * unit = n) :
    (n : ℚ) = 2 ^ k * unit := by
  rw [← h, Nat.pow_eq, Nat.cast_mul, Nat.cast_pow, Nat.cast_ofNat]

theorem threshold_eq : (threshold : ℚ) = (2 ^ 1024 - 2 ^ 970) * unit := by
  have hle : widest / 2 ≤ overflow := by decide +kernel
  have hoverflow : Nat.pow 2 1024 * unit = overflow := by decide +kernel
  have hhalf : Nat.pow 2 970 * unit = widest / 2 := by decide +kernel
  rw [sub_mul, ← cast_of_pow_mul_unit hoverflow, ← cast_of_pow_mul_unit hhalf, threshold,
    Nat.cast_sub hle]

theorem isRounded_ofRatio (hden : 0 < den) :
    (ofRatio false num den).IsRounded (num / (den * unit)) := by
  have hpos : (0 : ℚ) < den * unit := mul_pos (Nat.cast_pos.mpr hden) (Nat.cast_pos.mpr unit_pos)
  have hlimit : (num : ℚ) / (den * unit) < 2 ^ 1024 - 2 ^ 970 ↔ roundUnits num den < overflow := by
    rw [roundUnits_lt_overflow_iff hden, div_lt_iff₀ hpos, mul_left_comm, ← threshold_eq, mul_comm,
      ← Nat.cast_mul, Nat.cast_lt]
  constructor
  · intro hlt
    have hfits : Representable (roundUnits num den) := ⟨gap_dvd_roundUnits num den, hlimit.mp hlt⟩
    have hfinite : ofRatio false num den = .finite false (roundUnits num den) hfits :=
      ofRatio_eq_finite hfits rfl
    exact ⟨isNearest_ofRatio hden (by rw [hfinite]; rfl), _, _, hfinite⟩
  · intro hge
    exact dif_neg (mt hlimit.mpr (not_lt.mpr hge))

/-- A decimal is rounded correctly. -/
theorem isRounded_ofDecimal (digits : Nat) (exponent : Int) :
    (ofDecimal false digits exponent).IsRounded (digits * 10 ^ exponent) := by
  have hunit : (unit : ℚ) ≠ 0 := Nat.cast_ne_zero.mpr (Nat.ne_of_gt unit_pos)
  have hrounded :
      (ofRatio false (digits * 10 ^ exponent.toNat * unit) (10 ^ (-exponent).toNat)).IsRounded _ :=
    isRounded_ofRatio (Nat.pow_pos (by decide))
  have hquotient : ((digits * 10 ^ exponent.toNat * unit : Nat) : ℚ) /
      ((10 ^ (-exponent).toNat : Nat) * unit) = digits * 10 ^ exponent := by
    rw [Nat.cast_mul, mul_div_mul_right _ _ hunit, Nat.cast_mul, Nat.cast_pow, Nat.cast_pow,
      Nat.cast_ofNat, mul_div_assoc, ← zpow_natCast, ← zpow_natCast, ← zpow_sub₀ (by norm_num)]
    congr 2
    omega
  rw [ofDecimal_eq, ← hquotient]
  exact hrounded

end Binary64

end FinalGrades
