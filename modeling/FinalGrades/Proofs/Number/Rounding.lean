import FinalGrades.Number.Arithmetic
import Mathlib.Algebra.Order.Ring.Nat
import Mathlib.Tactic.Ring

/-!
Rounding an exact quotient to a double: a quotient that is a double stays as it is, a greater
quotient never becomes a smaller double, and a quotient below a power of two does not pass it.
-/

namespace FinalGrades

theorem nearestEven_mul_right (num den : Nat) {factor : Nat} (h : 0 < factor) :
    nearestEven (num * factor) (den * factor) = nearestEven num den := by
  have hleft : 2 * (num % den * factor) = 2 * (num % den) * factor := (Nat.mul_assoc _ _ _).symm
  simp only [nearestEven, Nat.mul_div_mul_right _ _ h, Nat.mul_mod_mul_right, hleft,
    Nat.mul_lt_mul_right h]

theorem nearestEven_mono {num more den : Nat} (h : num ≤ more) :
    nearestEven num den ≤ nearestEven more den := by
  rcases Nat.lt_or_eq_of_le (Nat.div_le_div_right (c := den) h) with hlt | heq
  · exact Nat.le_trans (nearestEven_le _ _) (Nat.le_trans hlt (le_nearestEven _ _))
  · have hnum := Nat.div_add_mod num den
    have hmore := Nat.div_add_mod more den
    rw [← heq] at hmore
    have hleft : num % den ≤ more % den := by omega
    simp only [nearestEven, ← heq]
    grind

theorem nearestEven_mul_self (n : Nat) {den : Nat} (h : 0 < den) :
    nearestEven (n * den) den = n := by
  have hzero : 2 * 0 < den := by omega
  simp only [nearestEven, Nat.mul_div_cancel _ h, Nat.mul_mod_left, hzero, if_true]

/-- A quotient less than half away from a whole number is rounded to it. -/
theorem nearestEven_eq {num den n : Nat} (habove : 2 * num < (2 * n + 1) * den)
    (hbelow : 2 * n * den < 2 * num + den) : nearestEven num den = n := by
  have hden : 0 < den := Nat.pos_of_ne_zero fun h => by simp [h] at habove
  have hsplit := Nat.div_add_mod num den
  have hmod := Nat.mod_lt num hden
  have hle : num / den ≤ n := by
    rw [← Nat.lt_succ_iff, Nat.div_lt_iff_lt_mul hden, Nat.succ_mul]
    rw [Nat.add_mul, Nat.mul_assoc] at habove
    omega
  have hge : n ≤ num / den + 1 := by
    by_contra hlt
    have hmul : (num / den + 2) * den ≤ n * den := Nat.mul_le_mul_right _ (by omega)
    rw [Nat.add_mul, Nat.mul_comm] at hmul
    rw [Nat.mul_assoc] at hbelow
    omega
  rcases Nat.lt_or_eq_of_le hle with hlt | heq
  · obtain rfl : n = num / den + 1 := by omega
    have hfar : den < 2 * (num % den) := by
      rw [Nat.mul_assoc, Nat.add_mul, Nat.mul_comm (num / den)] at hbelow
      omega
    simp only [nearestEven]
    grind
  · have hnear : 2 * (num % den) < den := by
      rw [Nat.add_mul, Nat.mul_assoc, ← heq, Nat.mul_comm (num / den)] at habove
      omega
    simp only [nearestEven, hnear, if_true, heq]

namespace Binary64

theorem unit_pos : 0 < unit := by decide +kernel

theorem pow_mul_unit (k : Nat) : 2 ^ k * unit = 2 ^ (k + 1074) := by
  unfold unit
  generalize 1074 = l
  rw [Nat.pow_eq, ← Nat.pow_add]

theorem two_pow_lt_overflow {k : Nat} (h : k < 2098) : 2 ^ k < overflow := by
  unfold overflow
  generalize 2098 = top at *
  exact Nat.pow_lt_pow_right (by decide) h

theorem roundUnits_mul_right (num den : Nat) {factor : Nat} (h : 0 < factor) :
    roundUnits (num * factor) (den * factor) = roundUnits num den := by
  simp only [roundUnits, Nat.mul_div_mul_right _ _ h, Nat.mul_right_comm den factor,
    nearestEven_mul_right _ _ h]

theorem log2_mono {n m : Nat} (h : n ≤ m) : n.log2 ≤ m.log2 := by
  by_cases hzero : n = 0
  · simp [hzero]
  · have hlarge : m ≠ 0 := by omega
    exact (Nat.le_log2 hlarge).mpr (Nat.le_trans (Nat.log2_self_le hzero) h)

/-- A quotient below a power of two is not rounded beyond it. -/
theorem roundUnits_le_two_pow {num den k : Nat} (h : num / den < 2 ^ k) :
    roundUnits num den ≤ 2 ^ k := by
  have hsignificand := significand_le num den
  have hlast := nearestEven_le num (den * Nat.pow 2 (gap (num / den)))
  simp only [roundUnits, Nat.pow_eq] at *
  by_cases hgap : gap (num / den) = 0
  · simp only [hgap, Nat.pow_zero, Nat.mul_one] at hlast ⊢
    omega
  · have hlog : (num / den).log2 < k := by
      by_cases hzero : num / den = 0
      · simp [hzero, gap] at hgap
      · exact (Nat.log2_lt hzero).mpr h
    refine Nat.le_trans (Nat.mul_le_mul_right _ hsignificand) ?_
    rw [← Nat.pow_add]
    exact Nat.pow_le_pow_right (by decide) (by simp only [gap] at hgap ⊢; omega)

/-- A quotient of at least a power of two that is a double is not rounded below it. -/
theorem two_pow_le_roundUnits {num den k : Nat} (h : 2 ^ k ≤ num / den) :
    2 ^ k ≤ roundUnits num den := by
  have hzero : num / den ≠ 0 := Nat.ne_of_gt (Nat.lt_of_lt_of_le (Nat.two_pow_pos k) h)
  have hlog : k ≤ (num / den).log2 := (Nat.le_log2 hzero).mpr h
  by_cases hgap : gap (num / den) = 0
  · have hfloor := le_nearestEven num den
    rw [roundUnits, hgap]
    simp only [Nat.pow_eq, Nat.pow_zero, Nat.mul_one]
    omega
  · have hsignificand := le_significand hgap
    simp only [roundUnits, Nat.pow_eq] at *
    refine Nat.le_trans ?_ (Nat.mul_le_mul_right _ hsignificand)
    rw [← Nat.pow_add]
    exact Nat.pow_le_pow_right (by decide) (by simp only [gap] at hgap ⊢; omega)

theorem roundUnits_mono_left {num more : Nat} (den : Nat) (h : num ≤ more) :
    roundUnits num den ≤ roundUnits more den := by
  have hlog := log2_mono (Nat.div_le_div_right (c := den) h)
  by_cases hgap : gap (num / den) = gap (more / den)
  · rw [roundUnits, roundUnits, hgap]
    exact Nat.mul_le_mul_right _ (nearestEven_mono h)
  · -- A power of two lies between the quotients, and neither is rounded across it.
    have hstep : (num / den).log2 + 1 ≤ (more / den).log2 := by
      simp only [gap] at hgap
      omega
    have hmore : more / den ≠ 0 := by
      intro hzero
      rw [hzero, Nat.log2_zero] at hstep
      omega
    refine Nat.le_trans (roundUnits_le_two_pow (k := (more / den).log2) ?_)
      (two_pow_le_roundUnits (Nat.log2_self_le hmore))
    exact Nat.lt_of_lt_of_le Nat.lt_log2_self (Nat.pow_le_pow_right (by decide) hstep)

/-- A greater quotient is not rounded to a smaller double. -/
theorem roundUnits_mono {num den num' den' : Nat} (hden : 0 < den) (hden' : 0 < den')
    (h : num * den' ≤ num' * den) : roundUnits num den ≤ roundUnits num' den' := by
  rw [← roundUnits_mul_right num den hden', ← roundUnits_mul_right num' den' hden,
    Nat.mul_comm den' den]
  exact roundUnits_mono_left _ h

/-- A double is not changed by rounding. -/
theorem roundUnits_one {n : Nat} (h : Representable n) : roundUnits n 1 = n := by
  have hpos : 0 < Nat.pow 2 (gap n) := by
    rw [Nat.pow_eq]
    exact Nat.two_pow_pos _
  obtain ⟨m, hm⟩ := h.1
  rw [roundUnits, Nat.div_one, Nat.one_mul]
  generalize Nat.pow 2 (gap n) = width at *
  subst hm
  rw [Nat.mul_comm width m, nearestEven_mul_self _ hpos]

variable {negative : Bool} {num den num' den' : Nat}

theorem ofRatio_congr (hden : 0 < den) (hden' : 0 < den') (h : num * den' = num' * den) :
    ofRatio negative num den = ofRatio negative num' den' := by
  have hround : roundUnits num den = roundUnits num' den' :=
    Nat.le_antisymm (roundUnits_mono hden hden' (Nat.le_of_eq h))
      (roundUnits_mono hden' hden (Nat.le_of_eq h.symm))
  simp only [ofRatio, hround]

theorem ofRatio_eq_finite {n : Nat} (hn : Representable n) (h : roundUnits num den = n) :
    ofRatio negative num den = .finite negative n hn := by
  subst h
  exact dif_pos hn.2

/-- A quotient that is rounded to a finite number has that count. -/
theorem ofRatio_eq_of_isFinite (h : (ofRatio negative num den).isFinite = true) :
    ∃ hn, ofRatio negative num den = .finite negative (roundUnits num den) hn := by
  by_cases hlt : roundUnits num den < overflow
  · exact ⟨⟨gap_dvd_roundUnits num den, hlt⟩, dif_pos hlt⟩
  · rw [ofRatio, dif_neg hlt] at h
    cases h

/-- A quotient of at most a double is rounded to a finite number. -/
theorem isFinite_ofRatio_of_le {n : Nat} (hn : Representable n) (hden : 0 < den)
    (h : num ≤ n * den) : (ofRatio negative num den).isFinite = true := by
  have hle : roundUnits num den ≤ n := by
    rw [← roundUnits_one hn]
    exact roundUnits_mono hden Nat.one_pos (by omega)
  rw [ofRatio, dif_pos (Nat.lt_of_le_of_lt hle hn.2)]
  rfl

theorem ofRatio_eq_infinite (h : overflow ≤ num / den) :
    ofRatio negative num den = .infinite negative := by
  have hround : overflow ≤ roundUnits num den := by
    unfold overflow at *
    generalize 2098 = top at *
    exact two_pow_le_roundUnits h
  exact dif_neg (Nat.not_lt.mpr hround)

theorem isFinite_ofRatio_of_lt {k : Nat} (hk : k < 2098) (h : num / den < 2 ^ k) :
    (ofRatio negative num den).isFinite = true := by
  have hlt : roundUnits num den < overflow :=
    Nat.lt_of_le_of_lt (roundUnits_le_two_pow h) (two_pow_lt_overflow hk)
  rw [ofRatio, dif_pos hlt]
  rfl

end Binary64

end FinalGrades
