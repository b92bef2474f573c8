import FinalGrades.Grade
import FinalGrades.Proofs.Number.Order

/-!
Moving a grade into the scale, which changes nothing the second time, and rounding it to hundredths:
of the steps of the rounding only the scaling can leave the range of the doubles, so a capped grade
has a rounded form exactly if its hundredfold is finite.
-/

namespace FinalGrades.Grade

open Binary64

variable {value : Binary64} {s : Bool} {m : Nat} {hm : Representable m}

section Scale

theorem scale_ends : (lowest.isFinite = true ∧ highest.isFinite = true) ∧
    ¬lowest < lowest ∧ ¬highest < lowest ∧ ¬highest < highest := by
  decide +kernel

/-- A clamped grade is an end of the scale, or it was on the scale. -/
theorem clamp_cases (value : Binary64) :
    clamp value = lowest ∨ clamp value = highest ∨
      clamp value = value ∧ ¬value < lowest ∧ ¬highest < value := by
  obtain ⟨_, _, hends, _⟩ := scale_ends
  unfold clamp Binary64.clamp
  by_cases hlow : value < lowest
  · simp only [if_pos hlow, if_neg hends, true_or]
  · by_cases hhigh : highest < value
    · simp only [if_neg hlow, if_pos hhigh, true_or, or_true]
    · exact .inr (.inr ⟨by simp only [if_neg hlow, if_neg hhigh], hlow, hhigh⟩)

theorem clamp_of_on_scale (hlow : ¬value < lowest) (hhigh : ¬highest < value) :
    clamp value = value := by
  simp only [clamp, Binary64.clamp, if_neg hlow, if_neg hhigh]

@[simp] theorem clamp_clamp (value : Binary64) : clamp (clamp value) = clamp value := by
  obtain ⟨_, hlowest, hends, hhighest⟩ := scale_ends
  rcases clamp_cases value with h | h | ⟨h, hlow, hhigh⟩
  · rw [h, clamp_of_on_scale hlowest hends]
  · rw [h, clamp_of_on_scale hends hhighest]
  · rw [h, clamp_of_on_scale hlow hhigh]

theorem isFinite_clamp (h : value.isFinite = true) : (clamp value).isFinite = true := by
  obtain ⟨⟨hlowest, hhighest⟩, _⟩ := scale_ends
  rcases clamp_cases value with hend | hend | ⟨hsame, _⟩
  · rw [hend, hlowest]
  · rw [hend, hhighest]
  · rw [hsame, h]

end Scale

theorem half_eq : ∃ units h, 2 * units = unit ∧ half = .finite false units h :=
  ⟨Nat.pow 2 1073, by decide +kernel, by decide +kernel, by decide +kernel⟩

theorem isFinite_half : half.isFinite = true := by
  obtain ⟨units, h, _, hhalf⟩ := half_eq
  rw [hhalf]
  rfl

theorem half_ne_negativeZero : half ≠ zero true := by
  obtain ⟨units, h, _, hhalf⟩ := half_eq
  rw [hhalf]
  exact fun hzero => Bool.false_ne_true (finite.inj hzero).1

theorem hundred_eq : ∃ h, (100 : Binary64) = .finite false (100 * unit) h :=
  ⟨_, ofNat_eq (n := 100) (by decide)⟩

theorem highest_eq : ∃ h, highest = .finite false (10 * unit) h :=
  ⟨_, ofNat_eq (n := 10) (by decide)⟩

section Position

theorem isFinite_highest : highest.isFinite = true := scale_ends.1.2

theorem position_lowest : lowest.position = 0 := by
  decide +kernel

theorem position_highest : highest.position = 10 * unit := position_ofNat (n := 10) (by decide)

theorem position_hundred : (100 : Binary64).position = 100 * unit :=
  position_ofNat (n := 100) (by decide)

/-- A clamped grade stands where the value does, or at the end of the scale on that side. -/
theorem position_clamp (h : value.isFinite = true) :
    (clamp value).position = Max.max 0 (Min.min value.position (10 * unit)) := by
  have hnumber := isNaN_of_isFinite h
  have hlow := lt_iff hnumber (isNaN_of_isFinite scale_ends.1.1)
  have hhigh := lt_iff (isNaN_of_isFinite scale_ends.1.2) hnumber
  rw [position_lowest] at hlow
  rw [position_highest] at hhigh
  unfold clamp Binary64.clamp
  by_cases hbelow : value < lowest
  · have hplace := hlow.mp hbelow
    simp only [if_pos hbelow, if_neg scale_ends.2.2.1, position_lowest]
    omega
  · have hplace := mt hlow.mpr hbelow
    by_cases habove : highest < value
    · have htop := hhigh.mp habove
      simp only [if_neg hbelow, if_pos habove, position_highest]
      omega
    · have htop := mt hhigh.mpr habove
      simp only [if_neg hbelow, if_neg habove]
      omega

theorem highest_le_iff (h : value.isFinite = true) :
    highest ≤ value ↔ 10 * unit ≤ value.position := by
  rw [le_iff (isNaN_of_isFinite isFinite_highest) (isNaN_of_isFinite h), position_highest]

theorem le_lowest_iff (h : value.isFinite = true) : value ≤ lowest ↔ value.position ≤ 0 := by
  rw [le_iff (isNaN_of_isFinite h) (isNaN_of_isFinite scale_ends.1.1), position_lowest]

end Position

theorem power_two : Binary64.power 10 2 = 100 := by
  have hfirst : squareMultiply 1 10 2 = squareMultiply 1 (10 * 10) 1 := by
    rw [squareMultiply]
    simp
  have hsecond : squareMultiply 1 (10 * 10) 1 = 1 * (10 * 10) := by
    rw [squareMultiply]
    simp
  have hten : (10 : Binary64) * 10 = 100 := ofNat_mul (by decide) (by decide)
  have hone : (1 : Binary64) * 100 = 100 := ofNat_mul (by decide) (by decide)
  show squareMultiply 1 10 2 = 100
  rw [hfirst, hsecond, hten, hone]

/-- Adding a half keeps a number finite, unless it is among the greatest. -/
theorem isFinite_add_half (h : s = true ∨ m ≤ 1024 * unit) :
    (finite s m hm + half).isFinite = true := by
  obtain ⟨units, _, hunits, hhalf⟩ := half_eq
  have hpos := unit_pos
  rw [hhalf, add_finite]
  split
  · rfl
  · by_cases hle : (signed s m + signed false units).natAbs ≤ m
    · exact isFinite_ofRatio_of_le hm Nat.one_pos (by omega)
    · refine isFinite_ofRatio_of_lt (k := 11 + 1074) (by decide) ?_
      rw [Nat.div_one, ← pow_mul_unit]
      rcases h with rfl | h
      · simp only [signed, Bool.false_eq_true, if_false, if_true] at hle ⊢
        omega
      · cases s <;> simp only [signed, Bool.false_eq_true, if_false, if_true] at hle ⊢ <;> omega

/-- A capped number times a hundred, if it is finite, is negative or not large. -/
theorem mul_hundred_eq_finite (h : value ≤ highest) (hscaled : value * 100 = finite s m hm) :
    s = true ∨ m ≤ 1024 * unit := by
  obtain ⟨_, hhundred⟩ := hundred_eq
  obtain ⟨_, hhighest⟩ := highest_eq
  rw [hhundred] at hscaled
  rw [hhighest] at h
  cases value with
  | nan => cases hscaled
  | infinite t =>
    rw [infinite_mul_finite (Nat.mul_ne_zero (by decide) (Nat.ne_of_gt unit_pos))] at hscaled
    cases hscaled
  | finite t n hn =>
    have hle := finite_le_iff.mp h
    rw [mul_finite, ofRatio] at hscaled
    split at hscaled
    next =>
      obtain ⟨rfl, rfl⟩ := finite.inj hscaled
      cases t with
      | true => exact .inl rfl
      | false =>
        have hpos := unit_pos
        have hcap : n ≤ 10 * unit := Int.ofNat_le.mp hle
        have hbound : n * (100 * unit) / unit < 2 ^ (10 + 1074) := by
          rw [← Nat.mul_assoc, Nat.mul_div_cancel _ unit_pos, ← pow_mul_unit]
          omega
        have hrounded := roundUnits_le_two_pow hbound
        have hten : 2 ^ 10 = 1024 := rfl
        rw [← pow_mul_unit, hten] at hrounded
        exact .inr hrounded
    next => cases hscaled

/-- The scaling to hundredths is the only step of the rounding that can overflow. -/
theorem isFinite_roundHalfUp (h : value ≤ highest) :
    (roundHalfUp value 2).isFinite = (value * 100).isFinite := by
  have hround : roundHalfUp value 2 = (value * 100 + half).floor / 100 := by
    rw [roundHalfUp, power_two]
  obtain ⟨_, hhundred⟩ := hundred_eq
  rw [hround]
  cases hscaled : value * 100 with
  | nan => rfl
  | infinite s =>
    obtain ⟨_, _, _, hhalf⟩ := half_eq
    rw [hhalf, hhundred]
    rfl
  | finite s m hm =>
    rw [hhundred, isFinite_div_of_unit_le (Nat.le_mul_of_pos_left _ (by decide)), isFinite_floor,
      isFinite_add_half (mul_hundred_eq_finite h hscaled)]
    rfl

end FinalGrades.Grade
