import FinalGrades.Number.Shortest
import FinalGrades.Proofs.Number.Rounding
import Mathlib.Tactic.Linarith

/-!
The shortest digits of a double read back to it. A decimal is read as one exact quotient, whatever
its exponent, so trailing zeros can be dropped; and eighteen digits, cut off, are nearer to the
double than half the way to its neighbours.
-/

namespace FinalGrades

theorem pow_digitCount_le {n : Nat} (h : 0 < n) : 10 ^ (digitCount n - 1) ≤ n := by
  fun_induction digitCount n with
  | case1 => omega
  | case2 n hn ih =>
    rw [Nat.add_sub_cancel]
    by_cases hlast : n / 10 = 0
    · rw [hlast, digitCount, if_pos rfl]
      exact h
    · have hrest := ih (Nat.pos_of_ne_zero hlast)
      have hcount : digitCount (n / 10) = digitCount (n / 10) - 1 + 1 := by
        rw [digitCount, if_neg hlast]
        rfl
      rw [hcount, Nat.pow_succ]
      omega

theorem digitCount_le {n places : Nat} (h : n < 10 ^ places) : digitCount n ≤ places := by
  by_contra hmore
  have hpos : 0 < n := by
    refine Nat.pos_of_ne_zero fun hzero => ?_
    rw [hzero, digitCount, if_pos rfl] at hmore
    omega
  have hpow : 10 ^ places ≤ 10 ^ (digitCount n - 1) := Nat.pow_le_pow_right (by decide) (by omega)
  exact absurd (Nat.le_trans hpow (pow_digitCount_le hpos)) (Nat.not_le.mpr h)

theorem lt_pow_digitCount (n : Nat) : n < 10 ^ digitCount n := by
  fun_induction digitCount n with
  | case1 => decide
  | case2 n hn ih =>
    rw [Nat.pow_succ]
    omega

namespace Binary64

variable {negative : Bool} {num den num' den' n digits : Nat} {exponent : Int}

/-- A quotient below half of the smallest double becomes zero. -/
theorem roundUnits_eq_zero (h : 2 * num < den) : roundUnits num den = 0 := by
  have hgap : gap (num / den) = 0 := by
    rw [Nat.div_eq_of_lt (by omega)]
    rfl
  rw [roundUnits, hgap, Nat.pow_eq, Nat.pow_zero, Nat.mul_one, Nat.mul_one]
  exact nearestEven_eq (by omega) (by omega)

theorem ofRatio_eq_zero (h : 2 * num < den) : ofRatio negative num den = zero negative :=
  ofRatio_eq_finite representable_zero (roundUnits_eq_zero h)

/-- An exponent that is not multiplied out because it is large makes an infinite number. -/
theorem overflow_le_of_large {e : Nat} (hdigits : digits ≠ 0) (h : 309 ≤ e) :
    overflow ≤ digits * 10 ^ e * unit := by
  have hpow : overflow ≤ Nat.pow 10 309 * unit := by decide +kernel
  generalize 309 = top at h hpow
  have hten : 10 ^ top ≤ digits * 10 ^ e :=
    Nat.le_trans (Nat.pow_le_pow_right (by decide) h)
      (Nat.le_mul_of_pos_left _ (Nat.pos_of_ne_zero hdigits))
  exact Nat.le_trans hpow (Nat.mul_le_mul_right _ hten)

/-- One that is not multiplied out because it is small makes zero. -/
theorem lt_of_small {e : Nat} (h : digits.log2 + 1076 ≤ 3 * e) : 2 * (digits * unit) < 10 ^ e := by
  have hpos : 0 < unit := unit_pos
  have hunit := pow_mul_unit 2
  have hsmall : digits.log2 + (2 + 1074) ≤ 3 * e := h
  generalize 2 + 1074 = k at hunit hsmall
  have hlog : digits < 2 ^ digits.log2 * 2 := Nat.lt_log2_self
  calc 2 * (digits * unit) < 2 * (2 ^ digits.log2 * 2 * unit) :=
        Nat.mul_lt_mul_of_pos_left (Nat.mul_lt_mul_of_pos_right hlog hpos) (by decide)
    _ = 2 ^ (digits.log2 + k) := by
        rw [Nat.pow_add, ← hunit]
        ring
    _ ≤ 2 ^ (3 * e) := Nat.pow_le_pow_right (by decide) hsmall
    _ = 8 ^ e := by rw [Nat.pow_mul]
    _ ≤ 10 ^ e := Nat.pow_le_pow_left (by decide) e

/-- A decimal is read as an exact quotient, also where its exponent is not multiplied out. -/
theorem ofDecimal_eq (negative : Bool) (digits : Nat) (exponent : Int) :
    ofDecimal negative digits exponent =
      ofRatio negative (digits * 10 ^ exponent.toNat * unit) (10 ^ (-exponent).toNat) := by
  unfold ofDecimal
  by_cases hdigits : digits = 0
  · rw [if_pos hdigits, hdigits, Nat.zero_mul, Nat.zero_mul]
    exact (ofRatio_eq_zero (Nat.pow_pos (by decide))).symm
  · rw [if_neg hdigits]
    cases exponent with
    | ofNat e =>
      have hup : (Int.ofNat e).toNat = e := rfl
      have hdown : (-Int.ofNat e).toNat = 0 := by simp
      rw [hup, hdown, Nat.pow_zero]
      simp only [Nat.pow_eq]
      split
      next hlarge =>
        have hle := overflow_le_of_large hdigits hlarge
        rw [← Nat.div_one (digits * 10 ^ e * unit)] at hle
        exact (ofRatio_eq_infinite hle).symm
      next => rfl
    | negSucc e =>
      have hup : (Int.negSucc e).toNat = 0 := rfl
      have hdown : (-Int.negSucc e).toNat = e + 1 := by simp
      rw [hup, hdown, Nat.pow_zero, Nat.mul_one]
      simp only [Nat.pow_eq]
      split
      next hsmall => exact (ofRatio_eq_zero (lt_of_small hsmall)).symm
      next => rfl

/-- Zeros at the end of the digits can be moved to the exponent. -/
theorem ofDecimal_mul_pow (negative : Bool) (digits zeros : Nat) (exponent : Int) :
    ofDecimal negative (digits * 10 ^ zeros) exponent =
      ofDecimal negative digits (exponent + zeros) := by
  have hpow : 10 ^ zeros * 10 ^ exponent.toNat * 10 ^ (-(exponent + zeros)).toNat =
      10 ^ (exponent + zeros).toNat * 10 ^ (-exponent).toNat := by
    rw [← Nat.pow_add, ← Nat.pow_add, ← Nat.pow_add]
    congr 1
    omega
  rw [ofDecimal_eq, ofDecimal_eq]
  refine ofRatio_congr (Nat.pow_pos (by decide)) (Nat.pow_pos (by decide)) ?_
  generalize unit = u
  calc _ = digits * u * (10 ^ zeros * 10 ^ exponent.toNat * 10 ^ (-(exponent + zeros)).toNat) := by
        ring
    _ = digits * u * (10 ^ (exponent + zeros).toNat * 10 ^ (-exponent).toNat) := by rw [hpow]
    _ = _ := by ring

theorem lt_pow_gap (n : Nat) : n < 2 ^ gap n * 2 ^ 53 := by
  rw [← Nat.pow_add]
  refine Nat.lt_of_lt_of_le Nat.lt_log2_self (Nat.pow_le_pow_right (by decide) ?_)
  simp only [gap]
  omega

/-- Beyond 2^53 gaps, the doubles are further apart than near ones of their size. -/
theorem le_of_near {width : Nat} (hsmall : num < width * 2 ^ 53 * den)
    (hwide : width * 2 ^ 53 < n → 2 * width ∣ n)
    (hnear : n * den * 2 ^ 54 < num * 2 ^ 54 + n * den) : n ≤ width * 2 ^ 53 := by
  by_contra hlarge
  obtain ⟨k, rfl⟩ := hwide (Nat.lt_of_not_le hlarge)
  have hbeyond : width * 2 ^ 53 < width * (2 * k) := by linarith
  have hk : 2 ^ 53 + 1 ≤ 2 * k := Nat.lt_of_mul_lt_mul_left hbeyond
  have hmul : width * den * (2 ^ 53 + 1) ≤ width * den * (2 * k) := Nat.mul_le_mul_left _ hk
  have hproduct : 2 * width * k * den = width * den * (2 * k) := by ring
  have hquotient : width * 2 ^ 53 * den = width * den * 2 ^ 53 := by ring
  rw [hproduct] at hnear
  rw [hquotient] at hsmall
  omega

/-- A quotient that lies below a double by a small part of it is rounded to it. -/
theorem roundUnits_of_near (hn : Representable n) (hle : num ≤ n * den)
    (hnear : n * den * 2 ^ 54 < num * 2 ^ 54 + n * den) : roundUnits num den = n := by
  have hpos : 0 < n * den := by omega
  have hn0 : n ≠ 0 := fun h => by simp [h] at hpos
  have hden : 0 < den := Nat.pos_of_mul_pos_left hpos
  have hquotient : num / den ≤ n := Nat.div_le_of_le_mul (by rwa [Nat.mul_comm])
  have hlog := log2_mono hquotient
  -- The double is a multiple of the gap at the quotient, and spans at most 2^53 such gaps.
  obtain ⟨m, hm⟩ : 2 ^ gap (num / den) ∣ n :=
    Nat.dvd_trans (Nat.pow_dvd_pow 2 (by simp only [gap]; omega)) hn.1
  have hbound : n ≤ 2 ^ gap (num / den) * 2 ^ 53 := by
    refine le_of_near ((Nat.div_lt_iff_lt_mul hden).mp (lt_pow_gap _)) (fun hlarge => ?_) hnear
    rw [← Nat.pow_add] at hlarge
    have hlog' := (Nat.le_log2 hn0).mpr (Nat.le_of_lt hlarge)
    rw [← Nat.pow_succ']
    exact Nat.dvd_trans (Nat.pow_dvd_pow 2 (by simp only [gap] at hlog' ⊢; omega)) hn.1
  rw [roundUnits]
  generalize gap (num / den) = exponent at *
  simp only [Nat.pow_eq]
  generalize 2 ^ exponent = width at *
  have hround : nearestEven num (den * width) = m := by
    have hwidth : n * den ≤ width * 2 ^ 53 * den := Nat.mul_le_mul_right den hbound
    subst hm
    refine nearestEven_eq ?_ ?_ <;> linarith [Nat.mul_pos hden (Nat.pos_of_mul_pos_right hpos)]
  rw [hround, hm, Nat.mul_comm]

theorem scaled_eq (n : Nat) (exponent : Int) :
    scaled n exponent = (n * 10 ^ (-exponent).toNat, unit * 10 ^ exponent.toNat) := by
  cases exponent with
  | ofNat e =>
    have hdown : (-Int.ofNat e).toNat = 0 := by simp
    rw [hdown, Nat.pow_zero, Nat.mul_one]
    rfl
  | negSucc e =>
    have hup : (Int.negSucc e).toNat = 0 := rfl
    have hdown : (-Int.negSucc e).toNat = e + 1 := by simp
    rw [hup, hdown, Nat.pow_zero, Nat.mul_one]
    rfl

/-- No double is below the power of ten at its leading digit. -/
theorem pow_leadingExponent_le (hpos : 0 < n) :
    unit * 10 ^ (leadingExponent n).toNat ≤ n * 10 ^ (-leadingExponent n).toNat := by
  unfold leadingExponent
  have hunit : 0 < unit := unit_pos
  split
  next hle =>
    have hwhole : 0 < n / unit := Nat.div_pos hle hunit
    have hcount : 10 ^ (digitCount (n / unit) - 1) ≤ n / unit := pow_digitCount_le hwhole
    have hup : ((digitCount (n / unit) : Int) - 1).toNat = digitCount (n / unit) - 1 := by omega
    have hdown : (-((digitCount (n / unit) : Int) - 1)).toNat = 0 := by
      have hdigits : digitCount (n / unit) ≠ 0 := by
        rw [digitCount, if_neg (Nat.ne_of_gt hwhole)]
        omega
      omega
    rw [hup, hdown, Nat.pow_zero, Nat.mul_one]
    exact Nat.le_trans (Nat.mul_le_mul_left _ hcount) (Nat.mul_div_le n unit)
  next hlt =>
    -- The power of ten is that of the quotient of one by the double, rounded up.
    have hcount := lt_pow_digitCount ((unit + n - 1) / n - 1)
    have hceil : unit ≤ n * ((unit + n - 1) / n) := by
      have hsplit := Nat.div_add_mod (unit + n - 1) n
      have hmod := Nat.mod_lt (unit + n - 1) hpos
      omega
    generalize digitCount ((unit + n - 1) / n - 1) = places at *
    have hup : (-(places : Int)).toNat = 0 := by omega
    have hdown : (- -(places : Int)).toNat = places := by omega
    rw [hup, hdown, Nat.pow_zero, Nat.mul_one]
    exact Nat.le_trans hceil (Nat.mul_le_mul_left _ (by omega))

/-- The places beyond the leading digit that are enough for every double. -/
theorem pow_le_of_places (hpos : 0 < n) :
    unit * 10 ^ (leadingExponent n - 17).toNat * 2 ^ 54 ≤
      n * 10 ^ (-(leadingExponent n - 17)).toNat := by
  have hlead := pow_leadingExponent_le hpos
  generalize unit = u at hlead ⊢
  generalize leadingExponent n = top at hlead ⊢
  have hpow : 10 ^ (top - 17).toNat * 10 ^ 17 * 10 ^ (-top).toNat =
      10 ^ top.toNat * 10 ^ (-(top - 17)).toNat := by
    rw [← Nat.pow_add, ← Nat.pow_add, ← Nat.pow_add]
    congr 1
    omega
  have hten : 0 < 10 ^ (-top).toNat := Nat.pow_pos (by decide)
  refine Nat.le_of_mul_le_mul_right ?_ hten
  calc u * 10 ^ (top - 17).toNat * 2 ^ 54 * 10 ^ (-top).toNat
      ≤ u * 10 ^ (top - 17).toNat * 10 ^ 17 * 10 ^ (-top).toNat := by
        exact Nat.mul_le_mul_right _ (Nat.mul_le_mul_left _ (by decide))
    _ = u * (10 ^ (top - 17).toNat * 10 ^ 17 * 10 ^ (-top).toNat) := by ring
    _ = u * 10 ^ top.toNat * 10 ^ (-(top - 17)).toNat := by rw [hpow, Nat.mul_assoc]
    _ ≤ n * 10 ^ (-top).toNat * 10 ^ (-(top - 17)).toNat := Nat.mul_le_mul_right _ hlead
    _ = n * 10 ^ (-(top - 17)).toNat * 10 ^ (-top).toNat := by ring

/-- A decimal that cuts a double off far enough behind its leading digit is read as the double. -/
theorem ofDecimal_cut (hn : Representable n)
    (hfine : unit * 10 ^ exponent.toNat * 2 ^ 54 ≤ n * 10 ^ (-exponent).toNat) :
    ofDecimal false (n * 10 ^ (-exponent).toNat / (unit * 10 ^ exponent.toNat)) exponent =
      .finite false n hn := by
  have hden : 0 < unit * 10 ^ exponent.toNat :=
    Nat.mul_pos unit_pos (Nat.pow_pos (by decide))
  have hsplit := Nat.div_add_mod (n * 10 ^ (-exponent).toNat) (unit * 10 ^ exponent.toNat)
  have hmod := Nat.mod_lt (n * 10 ^ (-exponent).toNat) hden
  rw [ofDecimal_eq, Nat.mul_assoc, Nat.mul_comm (10 ^ exponent.toNat) unit]
  generalize unit * 10 ^ exponent.toNat = den at *
  rw [Nat.mul_comm den] at hsplit
  exact ofRatio_eq_finite hn (roundUnits_of_near hn (by omega) (by omega))

/-- A double from some negative power of ten on has its leading digit at that place or before. -/
theorem le_leadingExponent {places : Nat} (h : unit ≤ n * 10 ^ places) :
    -(places : Int) ≤ leadingExponent n := by
  have hunit := unit_pos
  unfold leadingExponent
  split
  next hle =>
    have hwhole : 0 < n / unit := Nat.div_pos hle hunit
    have hdigits : digitCount (n / unit) ≠ 0 := by
      rw [digitCount, if_neg (Nat.ne_of_gt hwhole)]
      omega
    omega
  next hlt =>
    have hpos : 0 < n := Nat.pos_of_ne_zero fun hzero => by
      rw [hzero, Nat.zero_mul] at h
      omega
    have hceil : (unit + n - 1) / n < 10 ^ places + 1 := by
      rw [Nat.div_lt_iff_lt_mul hpos, Nat.add_mul, Nat.mul_comm (10 ^ places)]
      omega
    have hten : 0 < 10 ^ places := Nat.pow_pos (by decide)
    have hcount : digitCount ((unit + n - 1) / n - 1) ≤ places := digitCount_le (by omega)
    omega

theorem toBinary64_eq_finite {d : Decimal} {negative : Bool} {hn : Representable n}
    (h : d.toBinary64 = .finite negative n hn) : negative = false := by
  rw [Decimal.toBinary64, ofDecimal_eq, ofRatio] at h
  split at h
  next => exact (finite.inj h).1.symm
  next => cases h

/-- The test of the search whether a decimal reads back. -/
theorem toBinary64_of_test {d : Decimal} (hn : Representable n)
    (h : (match d.toBinary64 with
      | .finite _ m _ => decide (m = n)
      | _ => false) = true) : d.toBinary64 = .finite false n hn := by
  split at h
  next negative m hm hread =>
    obtain rfl := of_decide_eq_true h
    obtain rfl := toBinary64_eq_finite hread
    exact hread
  next => cases h

theorem toBinary64_of_neighbour? {tie : Tie} {d : Decimal} (hn : Representable n)
    (h : neighbour? tie n exponent = some d) : d.toBinary64 = .finite false n hn := by
  unfold neighbour? at h
  simp only at h
  split at h
  next hlower hupper =>
    split at h
    · cases h
      exact toBinary64_of_test hn hlower
    · split at h
      · cases h
        exact toBinary64_of_test hn hupper
      · cases tie with
        | up =>
          cases h
          exact toBinary64_of_test hn hupper
        | even =>
          cases h
          split
          next => exact toBinary64_of_test hn hlower
          next => exact toBinary64_of_test hn hupper
  next hlower _ =>
    cases h
    exact toBinary64_of_test hn hlower
  next _ hupper =>
    cases h
    exact toBinary64_of_test hn hupper
  next => cases h

theorem exponent_of_neighbour? {tie : Tie} {d : Decimal} (h : neighbour? tie n exponent = some d) :
    d.exponent = exponent := by
  unfold neighbour? at h
  simp only at h
  split at h
  next =>
    split at h
    · cases h
      rfl
    · split at h
      · cases h
        rfl
      · cases tie with
        | up =>
          cases h
          rfl
        | even =>
          cases h
          split <;> rfl
  next =>
    cases h
    rfl
  next =>
    cases h
    rfl
  next => cases h

/-- The search finds a neighbour that reads back. -/
theorem neighbour?_ne_none {tie : Tie} {hn : Representable n} {d : Decimal}
    (hread : d.toBinary64 = .finite false n hn)
    (h : d = ⟨(scaled n exponent).1 / (scaled n exponent).2, exponent⟩ ∨
      d = ⟨(scaled n exponent).1 / (scaled n exponent).2 + 1, exponent⟩) :
    neighbour? tie n exponent ≠ none := by
  intro hnone
  unfold neighbour? at hnone
  simp only at hnone
  split at hnone
  next =>
    split at hnone
    · cases hnone
    · split at hnone
      · cases hnone
      · cases tie <;> cases hnone
  next => cases hnone
  next => cases hnone
  next hlower hupper =>
    rcases h with rfl | rfl
    · rw [hread] at hlower
      exact absurd hlower (by simp)
    · rw [hread] at hupper
      exact absurd hupper (by simp)

/-- The search does not go on past a grid on which a neighbour reads back. -/
theorem le_exponent_shortestFrom {tie : Tie} {top : Int} {tries places : Nat}
    (hfound : neighbour? tie n exponent ≠ none) (h : exponent ≤ top - places) :
    exponent ≤ (shortestFrom tie n top places tries).exponent := by
  induction tries generalizing places with
  | zero =>
    rw [shortestFrom, scaled_eq]
    exact h
  | succ tries ih =>
    rw [shortestFrom]
    split
    next d hsome =>
      rw [exponent_of_neighbour? hsome]
      exact h
    next hnone =>
      have hne : top - places ≠ exponent := by
        rintro rfl
        exact hfound hnone
      exact ih (by omega)

theorem toBinary64_shortestFrom (tie : Tie) (hn : Representable n) (hpos : 0 < n)
    (tries places : Nat) (h : places + tries = 17) :
    (shortestFrom tie n (leadingExponent n) places tries).toBinary64 = .finite false n hn := by
  induction tries generalizing places with
  | zero =>
    obtain rfl : places = 17 := h
    rw [shortestFrom, scaled_eq]
    exact ofDecimal_cut hn (pow_le_of_places hpos)
  | succ tries ih =>
    rw [shortestFrom]
    split
    next hsome => exact toBinary64_of_neighbour? hn hsome
    next => exact ih (places + 1) (by omega)

end Binary64

namespace Decimal

theorem toBinary64_trim (d : Decimal) : d.trim.toBinary64 = d.toBinary64 := by
  fun_induction trim d with
  | case1 d h ih =>
    have hdigits : d.digits / 10 * 10 ^ 1 = d.digits := by omega
    rw [ih]
    exact (Binary64.ofDecimal_mul_pow false _ 1 _).symm.trans (by rw [hdigits]; rfl)
  | case2 => rfl

theorem le_exponent_trim (d : Decimal) : d.exponent ≤ d.trim.exponent := by
  fun_induction trim d with
  | case1 d h ih => exact Int.le_trans (Int.le_add_of_nonneg_right (by decide)) ih
  | case2 => exact Int.le_refl _

end Decimal

/-- The shortest digits of a double are read as the double. -/
theorem Binary64.toBinary64_shortest (tie : Tie) {n : Nat} (hn : Representable n) (hpos : 0 < n) :
    (shortest tie n).toBinary64 = .finite false n hn := by
  rw [shortest, Decimal.toBinary64_trim]
  exact toBinary64_shortestFrom tie hn hpos 17 0 rfl

theorem Binary64.le_exponent_shortest {tie : Tie} {n places : Nat}
    (hfound : neighbour? tie n (-(places : Int)) ≠ none) (h : unit ≤ n * 10 ^ places) :
    -(places : Int) ≤ (shortest tie n).exponent := by
  have hlead := le_leadingExponent h
  have htop : -(places : Int) ≤ leadingExponent n - (0 : Nat) := by omega
  rw [shortest]
  exact Int.le_trans (le_exponent_shortestFrom hfound htop) (Decimal.le_exponent_trim _)

theorem Binary64.digits_shortest_pos (tie : Tie) {n : Nat} (hn : Representable n) (hpos : 0 < n) :
    0 < (shortest tie n).digits := by
  refine Nat.pos_of_ne_zero fun hzero => ?_
  have hread := toBinary64_shortest tie hn hpos
  unfold Decimal.toBinary64 ofDecimal at hread
  rw [if_pos hzero] at hread
  exact Nat.ne_of_lt hpos (finite.inj hread).2

end FinalGrades
