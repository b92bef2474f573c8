import FinalGrades.Proofs.Number.Order
import Mathlib

/-!
What it means that a result is rounded to the nearest double, said with exact fractions: no finite
double is nearer to the exact result, and of two equally near ones it is the one with the even
significand. An exact quotient is rounded so, whenever the outcome is finite.
-/

namespace FinalGrades

section NearestEven

variable {num den k : Nat}

/-- No multiple of the denominator is nearer to the numerator. -/
theorem nearestEven_nearest (hden : 0 < den) (k : Nat) :
    Nat.dist (nearestEven num den * den) num ≤ Nat.dist (k * den) num := by
  have hsplit := Nat.div_add_mod num den
  have hmod := Nat.mod_lt num hden
  rw [Nat.mul_comm] at hsplit
  have hside : k * den ≤ num / den * den ∨ num / den * den + den ≤ k * den := by
    rcases Nat.lt_or_ge (num / den) k with hlt | hge
    · rw [← Nat.succ_mul]
      exact .inr (Nat.mul_le_mul_right den hlt)
    · exact .inl (Nat.mul_le_mul_right den hge)
  have hnext : (num / den + 1) * den = num / den * den + den := Nat.succ_mul _ _
  unfold nearestEven Nat.dist
  dsimp only
  split
  · omega
  · split
    · omega
    · rcases Nat.mod_two_eq_zero_or_one (num / den) with heven | hodd
      · rw [heven, Nat.add_zero]
        omega
      · rw [hodd]
        omega

/-- Another multiple is as near only halfway between two multiples. -/
theorem even_nearestEven (hden : 0 < den) (hk : k ≠ nearestEven num den)
    (h : Nat.dist (k * den) num = Nat.dist (nearestEven num den * den) num) :
    Even (nearestEven num den) := by
  have hsplit := Nat.div_add_mod num den
  have hmod := Nat.mod_lt num hden
  rw [Nat.mul_comm] at hsplit
  have hside : k * den + den ≤ num / den * den ∨ k = num / den ∨ k = num / den + 1 ∨
      num / den * den + 2 * den ≤ k * den := by
    rcases Nat.lt_or_ge k (num / den) with hlt | hge
    · rw [← Nat.succ_mul]
      exact .inl (Nat.mul_le_mul_right den hlt)
    · rcases Nat.lt_or_ge (num / den + 1) k with hlt | hle
      · rw [← Nat.add_mul]
        exact .inr (.inr (.inr (Nat.mul_le_mul_right den hlt)))
      · omega
  have hnext : (num / den + 1) * den = num / den * den + den := Nat.succ_mul _ _
  unfold nearestEven at hk h ⊢
  unfold Nat.dist at h
  dsimp only at hk h ⊢
  by_cases hbelow : 2 * (num % den) < den
  · rw [if_pos hbelow] at hk h
    rcases hside with hside | rfl | rfl | hside
    · omega
    · exact absurd rfl hk
    · omega
    · omega
  · by_cases habove : den < 2 * (num % den)
    · rw [if_neg hbelow, if_pos habove] at hk h
      rcases hside with hside | rfl | rfl | hside
      · omega
      · omega
      · exact absurd rfl hk
      · omega
    · rw [if_neg hbelow, if_neg habove]
      grind

end NearestEven

namespace Binary64

section Grid

variable {num den m : Nat}

/-- Where doubles are further apart than `m` can be, `m` is below all of them. -/
theorem grid_of_representable (hm : Representable m) (num den : Nat) :
    (∃ k, m = k * 2 ^ gap (num / den)) ∨
      m < 2 ^ 52 * 2 ^ gap (num / den) ∧ 2 ^ 52 * 2 ^ gap (num / den) ≤ num / den := by
  rcases Nat.lt_or_ge (gap m) (gap (num / den)) with hlt | hge
  · refine .inr ⟨?_, ?_⟩
    · refine Nat.lt_of_lt_of_le (lt_pow_gap m) ?_
      rw [← Nat.pow_add, ← Nat.pow_add]
      exact Nat.pow_le_pow_right (by decide) (by omega)
    · have hzero : num / den ≠ 0 := by
        intro hzero
        rw [hzero] at hlt
        exact absurd hlt (Nat.not_lt_zero _)
      refine Nat.le_trans ?_ (Nat.log2_self_le hzero)
      rw [← Nat.pow_add]
      exact Nat.pow_le_pow_right (by decide) (by simp only [gap] at hlt ⊢; omega)
  · obtain ⟨k, hk⟩ := Nat.dvd_trans (Nat.pow_dvd_pow 2 hge) hm.1
    exact .inl ⟨k, by rw [Nat.mul_comm]; exact hk⟩

/-- No double is nearer than the rounded one; another is as near only if the significand is even. -/
theorem roundUnits_nearest (hden : 0 < den) (hm : Representable m) :
    Nat.dist (roundUnits num den * den) num ≤ Nat.dist (m * den) num ∧
      (m ≠ roundUnits num den →
        Nat.dist (m * den) num = Nat.dist (roundUnits num den * den) num →
          Even (nearestEven num (den * 2 ^ gap (num / den)))) := by
  have hgrid := grid_of_representable hm num den
  simp only [roundUnits, Nat.pow_eq]
  have hwidth : 0 < den * 2 ^ gap (num / den) := Nat.mul_pos hden (Nat.two_pow_pos _)
  have hscale : ∀ k, k * 2 ^ gap (num / den) * den = k * (den * 2 ^ gap (num / den)) := by
    intro k
    ring
  rw [hscale]
  rcases hgrid with ⟨k, rfl⟩ | ⟨hbelow, habove⟩
  · rw [hscale]
    refine ⟨nearestEven_nearest hwidth k, fun hne heq => even_nearestEven hwidth ?_ heq⟩
    rintro rfl
    exact hne rfl
  · -- The least double of the binade is nearer than any double below it.
    have hlow : _ ≤ Nat.dist _ num := nearestEven_nearest hwidth (2 ^ 52)
    have hless := Nat.mul_lt_mul_of_pos_right hbelow hden
    have hmore : 2 ^ 52 * 2 ^ gap (num / den) * den ≤ num :=
      Nat.le_trans (Nat.mul_le_mul_right den habove) (Nat.div_mul_le_self num den)
    rw [hscale] at hless hmore
    unfold Nat.dist at *
    exact ⟨by omega, fun _ heq => by omega⟩

end Grid

/-- The exact value; that of an infinity does not matter. -/
def toRat (x : Binary64) : ℚ := x.position / unit

/-- The whole number that a finite double is a power of two times. -/
def significand : Binary64 → Nat
  | .finite _ n _ => n / Nat.pow 2 (gap n)
  | _ => 0

/-- The double that a number is rounded to, a number halfway between two to the even one. -/
structure IsNearest (x : Binary64) (q : ℚ) : Prop where
  finite : x.isFinite = true
  nearest : ∀ y : Binary64, y.isFinite = true → |x.toRat - q| ≤ |y.toRat - q|
  even : ∀ y : Binary64, y.isFinite = true → y.toRat ≠ x.toRat → |y.toRat - q| = |x.toRat - q| →
    Even x.significand

section Quotient

variable {s t : Bool} {num den m n : Nat}

/-- A rounded quotient has the significand that it was rounded to, or half of it. -/
theorem significand_roundUnits (hfinite : Representable (roundUnits num den))
    (heven : Even (nearestEven num (den * 2 ^ gap (num / den)))) :
    Even (significand (finite s (roundUnits num den) hfinite)) := by
  have hle := significand_le num den
  have hge := @le_significand num den
  show Even (roundUnits num den / Nat.pow 2 (gap (roundUnits num den)))
  simp only [roundUnits, Nat.pow_eq] at hle hge ⊢
  generalize gap (num / den) = g at *
  generalize nearestEven num (den * 2 ^ g) = k at *
  have hpos : 0 < 2 ^ g := Nat.two_pow_pos g
  by_cases hzero : k = 0
  · rw [hzero, Nat.zero_mul, Nat.zero_div]
    exact Even.zero
  have hlog := log2_mul_pow (k := g) hzero
  rw [Nat.pow_eq] at hlog
  rcases Nat.lt_or_eq_of_le hle with hlt | heq
  · have hgap : gap (k * 2 ^ g) = g := by
      have hbits : k.log2 < 53 := (Nat.log2_lt hzero).mpr hlt
      rw [gap, hlog]
      by_cases hg : g = 0
      · omega
      · have hlow : 52 ≤ k.log2 := (Nat.le_log2 hzero).mpr (hge hg)
        omega
    rwa [hgap, Nat.mul_div_cancel k hpos]
  · have hgap : gap (k * 2 ^ g) = g + 1 := by
      rw [gap, hlog, heq, Nat.log2_two_pow]
      omega
    have hsplit : k * 2 ^ g = 2 ^ 52 * 2 ^ (g + 1) := by
      rw [heq, ← Nat.pow_add, ← Nat.pow_add]
      congr 1
      omega
    rw [hgap, hsplit, Nat.mul_div_cancel _ (Nat.two_pow_pos _)]
    exact ⟨2 ^ 51, rfl⟩

theorem natAbs_signed_sub (s : Bool) (m n : Nat) :
    (signed s m - signed s n).natAbs = Nat.dist m n := by
  unfold Nat.dist
  cases s <;> simp only [signed, if_true, Bool.false_eq_true, if_false] <;> omega

/-- The other sign only takes a number further away. -/
theorem dist_le_natAbs (s t : Bool) (m n : Nat) :
    Nat.dist m n ≤ (signed t m - signed s n).natAbs := by
  unfold Nat.dist
  cases s <;> cases t <;> simp only [signed, if_true, Bool.false_eq_true, if_false] <;> omega

theorem eq_zero_of_natAbs_eq_dist (hsign : t ≠ s)
    (h : (signed t m - signed s n).natAbs = Nat.dist m n) : m = 0 ∨ n = 0 := by
  unfold Nat.dist at h
  cases s <;> cases t <;> simp only [signed, if_true, Bool.false_eq_true, if_false] at h <;>
    first | exact absurd rfl hsign | omega

theorem signed_mul_nat (s : Bool) (m den : Nat) : signed s m * den = signed s (m * den) := by
  cases s <;> simp [signed]

theorem abs_toRat_sub (hden : 0 < den) (x : Binary64) (num : Int) :
    |x.toRat - num / (den * unit)| = ((x.position * den - num).natAbs : ℚ) / (den * unit) := by
  have hpos : (0 : ℚ) < den := Nat.cast_pos.mpr hden
  have hunit : (0 : ℚ) < unit := Nat.cast_pos.mpr unit_pos
  have hsub : x.toRat - num / (den * unit) = (x.position * den - num : Int) / (den * unit) := by
    rw [toRat]
    push_cast
    generalize (unit : ℚ) = u at *
    field_simp
  rw [hsub, abs_div, abs_of_pos (mul_pos hpos hunit), Nat.cast_natAbs, Int.cast_abs]

theorem toRat_injective {x y : Binary64} (h : x.position = y.position) : x.toRat = y.toRat := by
  rw [toRat, toRat, h]

/-- An exact quotient is rounded to the double nearest to it. -/
theorem isNearest_ofRatio (hden : 0 < den) (h : (ofRatio s num den).isFinite = true) :
    IsNearest (ofRatio s num den) (signed s num / (den * unit)) := by
  obtain ⟨hfinite, hratio⟩ := ofRatio_eq_of_isFinite h
  have hunits : (0 : ℚ) < den * unit :=
    mul_pos (Nat.cast_pos.mpr hden) (Nat.cast_pos.mpr unit_pos)
  have hdistance : ((finite s (roundUnits num den) hfinite).position * den - signed s num).natAbs =
      Nat.dist (roundUnits num den * den) num := by
    rw [position_finite, signed_mul_nat, natAbs_signed_sub]
  rw [hratio]
  refine ⟨rfl, fun y hy => ?_, fun y hy hne heq => ?_⟩
  · obtain ⟨t, m, hm, rfl⟩ := eq_finite_of_isFinite hy
    rw [abs_toRat_sub hden, abs_toRat_sub hden, div_le_div_iff_of_pos_right hunits, Nat.cast_le,
      hdistance, position_finite, signed_mul_nat]
    exact Nat.le_trans (roundUnits_nearest hden hm).1 (dist_le_natAbs s t _ _)
  · obtain ⟨t, m, hm, rfl⟩ := eq_finite_of_isFinite hy
    rw [abs_toRat_sub hden, abs_toRat_sub hden, div_left_inj' (ne_of_gt hunits), Nat.cast_inj,
      hdistance, position_finite, signed_mul_nat] at heq
    obtain ⟨hnearest, heven⟩ : Nat.dist _ num ≤ _ ∧ _ := roundUnits_nearest hden hm
    have hless := dist_le_natAbs s t (m * den) num
    refine significand_roundUnits hfinite (heven ?_ (by omega))
    rintro rfl
    have hsign : t ≠ s := by
      rintro rfl
      exact hne rfl
    have hzero : roundUnits num den = 0 := by
      rcases eq_zero_of_natAbs_eq_dist hsign heq with hproduct | hnum
      · exact (Nat.mul_eq_zero.mp hproduct).resolve_right (Nat.ne_of_gt hden)
      · rw [hnum, roundUnits_zero]
    refine hne (toRat_injective ?_)
    rw [position_finite, position_finite, hzero]
    cases s <;> cases t <;> rfl

end Quotient

end Binary64

end FinalGrades
