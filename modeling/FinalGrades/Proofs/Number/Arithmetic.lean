import FinalGrades.Proofs.Number.Rounding

/-!
The operations on finite numbers as equations between their counts, and which of them stay finite.
-/

namespace FinalGrades.Binary64

section Equations

variable {s t : Bool} {m n : Nat} {hm : Representable m} {hn : Representable n}

theorem finite_le_iff : finite s m hm ≤ finite t n hn ↔ signed s m ≤ signed t n :=
  decide_eq_true_iff

theorem finite_lt_iff : finite s m hm < finite t n hn ↔ signed s m < signed t n :=
  decide_eq_true_iff

theorem add_finite : finite s m hm + finite t n hn =
    if signed s m + signed t n = 0 then zero (s && t)
    else ofRatio (decide (signed s m + signed t n < 0)) (signed s m + signed t n).natAbs 1 := rfl

theorem mul_finite : finite s m hm * finite t n hn = ofRatio (s != t) (m * n) unit := by
  show mul _ _ = _
  rw [mul]

theorem infinite_mul_finite (h : n ≠ 0) :
    infinite s * finite t n hn = infinite (s != t) := if_neg h

theorem div_finite (h : n ≠ 0) :
    finite s m hm / finite t n hn = ofRatio (s != t) (m * unit) n := if_neg h

end Equations

section Whole

theorem gap_mul_pow_le {n k : Nat} (h : n < 2 ^ 53) : gap (n * 2 ^ k) ≤ k := by
  by_cases hzero : n = 0
  · rw [hzero, Nat.zero_mul, gap, Nat.log2_zero]
    omega
  · have hlog := (Nat.log2_lt hzero).mpr h
    have hproduct := log2_mul_pow (k := k) hzero
    rw [Nat.pow_eq] at hproduct
    rw [gap, hproduct]
    omega

/-- Whole numbers of at most 53 bits are doubles. -/
theorem representable_mul_unit {n : Nat} (h : n < 2 ^ 53) : Representable (n * unit) := by
  have hlarge : 2 ^ 53 * unit < overflow := by
    rw [pow_mul_unit]
    exact two_pow_lt_overflow (by decide)
  have hdvd : Nat.pow 2 (gap (n * unit)) ∣ n * unit := by
    unfold unit
    generalize 1074 = k
    simp only [Nat.pow_eq]
    exact Nat.dvd_trans (Nat.pow_dvd_pow 2 (gap_mul_pow_le h)) (Nat.dvd_mul_left _ _)
  exact ⟨hdvd, Nat.lt_trans (Nat.mul_lt_mul_of_pos_right h unit_pos) hlarge⟩

theorem ofNat_eq {n : Nat} (h : n < 2 ^ 53) :
    ofNat n = finite false (n * unit) (representable_mul_unit h) :=
  ofRatio_eq_finite _ (roundUnits_one (representable_mul_unit h))

theorem ofNat_mul {m n : Nat} (hm : m < 2 ^ 53) (hn : n < 2 ^ 53) :
    ofNat m * ofNat n = ofNat (m * n) := by
  rw [ofNat_eq hm, ofNat_eq hn, mul_finite, ofNat]
  refine ofRatio_congr unit_pos Nat.one_pos ?_
  generalize unit = u
  ring

end Whole

theorem isFinite_div_of_unit_le {x : Binary64} {t : Bool} {n : Nat} {hn : Representable n}
    (h : unit ≤ n) : (x / finite t n hn).isFinite = x.isFinite := by
  have hpos : 0 < n := Nat.lt_of_lt_of_le unit_pos h
  cases x with
  | nan => rfl
  | infinite s => rfl
  | finite s m hm =>
    rw [div_finite (Nat.ne_of_gt hpos), isFinite_ofRatio_of_le hm hpos (Nat.mul_le_mul_left _ h)]
    rfl

theorem ceil_mul_self {n den : Nat} (hden : 0 < den) (h : den ∣ n) :
    (n + (den - 1)) / den * den = n := by
  obtain ⟨k, rfl⟩ := h
  rw [Nat.mul_add_div hden, Nat.div_eq_of_lt (by omega), Nat.add_zero, Nat.mul_comm]

theorem unit_dvd {n : Nat} (hn : Representable n) (h : 1074 ≤ gap n) : unit ∣ n := by
  unfold unit
  generalize 1074 = k at h ⊢
  exact Nat.dvd_trans (Nat.pow_dvd_pow 2 h) hn.1

theorem lt_two_pow_of_gap_lt {n k : Nat} (h : gap n < k) : n < 2 ^ (k + 52) := by
  refine Nat.lt_of_lt_of_le Nat.lt_log2_self (Nat.pow_le_pow_right (by decide) ?_)
  simp only [gap] at h
  omega

theorem add_lt_two_pow_succ {a b k : Nat} (ha : a < 2 ^ k) (hb : b ≤ 2 ^ k) :
    a + b < 2 ^ (k + 1) := by
  rw [Nat.pow_succ]
  omega

/-- A double that is no whole number is far below the largest double. -/
theorem isFinite_floor (x : Binary64) : x.floor.isFinite = x.isFinite := by
  cases x with
  | nan => rfl
  | infinite s => rfl
  | finite s n hn =>
    show (ofRatio s ((if s then (n + (unit - 1)) / unit else n / unit) * unit) 1).isFinite = true
    cases s with
    | false =>
      exact isFinite_ofRatio_of_le hn Nat.one_pos (by simpa using Nat.div_mul_le_self n unit)
    | true =>
      simp only [if_true]
      by_cases hgap : 1074 ≤ gap n
      · -- The double is whole already.
        rw [ceil_mul_self unit_pos (unit_dvd hn hgap)]
        exact isFinite_ofRatio_of_le hn Nat.one_pos (Nat.le_of_eq (Nat.mul_one n).symm)
      · have hunit : unit - 1 ≤ 2 ^ (1074 + 52) := by
          unfold unit
          generalize 1074 = k
          exact Nat.le_trans (Nat.sub_le _ 1)
            (Nat.pow_le_pow_right (by decide) (Nat.le_add_right k 52))
        refine isFinite_ofRatio_of_lt (k := 1074 + 52 + 1) (by decide) ?_
        rw [Nat.div_one]
        exact Nat.lt_of_le_of_lt (Nat.div_mul_le_self _ _)
          (add_lt_two_pow_succ (lt_two_pow_of_gap_lt (by omega)) hunit)

section Operands

variable {x y : Binary64}

/-- A finite result comes from finite operands; only a divisor can be infinite. -/
theorem isFinite_of_add (h : (x + y).isFinite = true) : x.isFinite = true ∧ y.isFinite = true := by
  cases x with
  | nan => cases h
  | infinite s =>
    cases y with
    | nan => cases h
    | infinite t =>
      change (if s = t then infinite s else nan).isFinite = true at h
      split at h <;> cases h
    | finite t n hn => cases h
  | finite s m hm =>
    cases y with
    | nan => cases h
    | infinite t => cases h
    | finite t n hn => exact ⟨rfl, rfl⟩

theorem isFinite_of_mul (h : (x * y).isFinite = true) : x.isFinite = true ∧ y.isFinite = true := by
  cases x with
  | nan => cases h
  | infinite s =>
    cases y with
    | nan => cases h
    | infinite t => cases h
    | finite t n hn =>
      change (if n = 0 then nan else infinite (s != t)).isFinite = true at h
      split at h <;> cases h
  | finite s m hm =>
    cases y with
    | nan => cases h
    | infinite t =>
      change (if m = 0 then nan else infinite (t != s)).isFinite = true at h
      split at h <;> cases h
    | finite t n hn => exact ⟨rfl, rfl⟩

theorem isFinite_of_div (h : (x / y).isFinite = true) : x.isFinite = true := by
  cases x with
  | nan => cases h
  | infinite s => cases y <;> cases h
  | finite s m hm => rfl

theorem isFinite_div_zero {n : Nat} {hn : Representable n} (h : n = 0) :
    (x / finite false n hn).isFinite = false := by
  cases x with
  | nan => rfl
  | infinite s => rfl
  | finite s m hm =>
    have hquotient : finite s m hm / finite false n hn =
        if m = 0 then nan else infinite (s != false) := if_pos h
    rw [hquotient]
    split <;> rfl

end Operands

section NaN

theorem isNaN_ofRatio (s : Bool) (num den : Nat) : (ofRatio s num den).isNaN = false := by
  unfold ofRatio
  split <;> rfl

variable {x : Binary64}

/-- A number over a positive one, and times one, is a number. -/
theorem isNaN_div (hx : x.isNaN = false) {n : Nat} {hn : Representable n} (h : n ≠ 0) :
    (x / finite false n hn).isNaN = false := by
  cases x with
  | nan => cases hx
  | infinite s => rfl
  | finite s m hm =>
    rw [div_finite h]
    exact isNaN_ofRatio _ _ _

theorem isNaN_mul (hx : x.isNaN = false) {n : Nat} {hn : Representable n} (h : n ≠ 0) :
    (x * finite false n hn).isNaN = false := by
  cases x with
  | nan => cases hx
  | infinite s =>
    rw [infinite_mul_finite h]
    rfl
  | finite s m hm =>
    rw [mul_finite]
    exact isNaN_ofRatio _ _ _

theorem isNaN_round (hx : x.isNaN = false) : x.round.isNaN = false := by
  cases x with
  | nan => cases hx
  | infinite s => rfl
  | finite s m hm => exact isNaN_ofRatio _ _ _

end NaN

/-- A finite number that is not above the cap, or else the cap. -/
theorem min_le {x cap : Binary64} (hx : x.isFinite = true) (hcap : cap.isFinite = true) :
    Binary64.min x cap ≤ cap := by
  cases x with
  | nan => cases hx
  | infinite s => cases hx
  | finite s m hm =>
    cases cap with
    | nan => cases hcap
    | infinite t => cases hcap
    | finite t n hn =>
      simp only [Binary64.min, isNaN, Bool.false_eq_true, if_false]
      split
      next => exact finite_le_iff.mpr (Int.le_refl _)
      next hnot => exact finite_le_iff.mpr (Int.not_lt.mp fun hlt => hnot (finite_lt_iff.mpr hlt))

theorem isFinite_min {x y : Binary64} (hx : x.isFinite = true) (hy : y.isFinite = true) :
    (Binary64.min x y).isFinite = true := by
  unfold Binary64.min
  split
  · exact hy
  · split
    · exact hy
    · exact hx

end FinalGrades.Binary64
