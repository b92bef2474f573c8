import FinalGrades.Proofs.Number.Nearest

/-!
How far rounding takes a result from the exact quotient: by at most one part of it in 2^53, and in
addition by half of the smallest double, unless the quotient is a whole count. For numbers with a
bound that gives the error of a sum, step by step in the order in which it is added up, and of the
quotient by the number of terms.
-/

namespace FinalGrades

/-- The nearest whole number is off by at most a half. -/
theorem nearestEven_error (num : Nat) {den : Nat} (h : 0 < den) :
    2 * (nearestEven num den * den) ≤ 2 * num + den ∧
      2 * num ≤ 2 * (nearestEven num den * den) + den := by
  have hsplit := Nat.div_add_mod num den
  have hmod := Nat.mod_lt num h
  have hnext : (num / den + 1) * den = num / den * den + den := Nat.succ_mul _ _
  rw [Nat.mul_comm] at hsplit
  unfold nearestEven
  dsimp only
  split
  next => omega
  next =>
    split
    next => omega
    next =>
      -- The quotient ends in a half, and both neighbours are equally far away.
      rcases Nat.mod_two_eq_zero_or_one (num / den) with heven | hodd
      · rw [heven, Nat.add_zero]
        omega
      · rw [hodd]
        omega

namespace Binary64

section Units

variable {num den : Nat}

theorem roundUnits_error (num : Nat) (h : 0 < den) :
    2 * (roundUnits num den * den) ≤ 2 * num + den * 2 ^ gap (num / den) ∧
      2 * num ≤ 2 * (roundUnits num den * den) + den * 2 ^ gap (num / den) := by
  have hwidth : 0 < den * 2 ^ gap (num / den) := Nat.mul_pos h (Nat.two_pow_pos _)
  have herror := nearestEven_error num hwidth
  have hunits : roundUnits num den * den =
      nearestEven num (den * 2 ^ gap (num / den)) * (den * 2 ^ gap (num / den)) := by
    simp only [roundUnits, Nat.pow_eq]
    rw [Nat.mul_assoc, Nat.mul_comm den]
  rwa [hunits]

/-- Where doubles are more than one count apart, they are so by little of their size. -/
theorem pow_gap_le (h : gap (num / den) ≠ 0) : den * 2 ^ gap (num / den) * 2 ^ 52 ≤ num := by
  have hzero : num / den ≠ 0 := by
    intro hzero
    rw [hzero] at h
    exact h rfl
  have hpow : 2 ^ gap (num / den) * 2 ^ 52 ≤ num / den := by
    refine Nat.le_trans ?_ (Nat.log2_self_le hzero)
    rw [← Nat.pow_add]
    exact Nat.pow_le_pow_right (by decide) (by simp only [gap] at h ⊢; omega)
  rw [Nat.mul_assoc]
  exact Nat.le_trans (Nat.mul_le_mul_left den hpow) (Nat.mul_div_le num den)

theorem roundUnits_relative_error (num : Nat) (h : 0 < den) :
    2 ^ 53 * (roundUnits num den * den) ≤ 2 ^ 53 * num + (num + 2 ^ 52 * den) ∧
      2 ^ 53 * num ≤ 2 ^ 53 * (roundUnits num den * den) + (num + 2 ^ 52 * den) := by
  obtain ⟨hhigh, hlow⟩ := roundUnits_error num h
  have hwidth : den * 2 ^ gap (num / den) * 2 ^ 52 ≤ num + 2 ^ 52 * den := by
    by_cases hgap : gap (num / den) = 0
    · rw [hgap, Nat.pow_zero, Nat.mul_one, Nat.mul_comm]
      exact Nat.le_add_left _ _
    · exact Nat.le_trans (pow_gap_le hgap) (Nat.le_add_right _ _)
  generalize den * 2 ^ gap (num / den) = width at *
  omega

/-- A whole count is off by no more than a part of it. -/
theorem roundUnits_one_error (n : Nat) :
    2 ^ 53 * roundUnits n 1 ≤ 2 ^ 53 * n + n ∧ 2 ^ 53 * n ≤ 2 ^ 53 * roundUnits n 1 + n := by
  obtain ⟨hhigh, hlow⟩ := roundUnits_error n Nat.one_pos
  by_cases hgap : gap (n / 1) = 0
  · have hexact : roundUnits n 1 = n := by
      have hself := nearestEven_mul_self n Nat.one_pos
      rw [Nat.mul_one] at hself
      simp only [roundUnits, hgap, Nat.pow_eq, Nat.pow_zero, Nat.mul_one, hself]
    rw [hexact]
    omega
  · have hwidth := pow_gap_le hgap
    generalize 1 * 2 ^ gap (n / 1) = width at *
    omega

end Units

section Rounded

variable {num : Int} {den n : Nat}

/-- Below a double nothing is rounded to an infinity. -/
theorem rounded_eq_signed (hden : 0 < den) (hn : Representable n) (h : num.natAbs ≤ n * den) :
    rounded num den = signed (decide (num < 0)) (roundUnits num.natAbs den) := by
  have hle : roundUnits num.natAbs den ≤ n := by
    rw [← roundUnits_one hn]
    exact roundUnits_mono hden Nat.one_pos (by rwa [Nat.mul_one])
  rw [rounded, Nat.min_eq_left (Nat.le_trans hle (Nat.le_of_lt hn.2))]

/-- The sign takes no part in the error. -/
theorem abs_rounded_sub (hden : 0 < den) (hn : Representable n) (h : num.natAbs ≤ n * den) :
    |rounded num den * den - num| =
      (Nat.dist (roundUnits num.natAbs den * den) num.natAbs : Nat) := by
  have hsigned : rounded num den * den - num =
      signed (decide (num < 0)) (roundUnits num.natAbs den * den) -
        signed (decide (num < 0)) num.natAbs := by
    rw [rounded_eq_signed hden hn h, signed_mul_nat, signed_natAbs]
  rw [hsigned, Int.abs_eq_natAbs, natAbs_signed_sub]

theorem natAbs_rounded_le (hden : 0 < den) (hn : Representable n) (h : num.natAbs ≤ n * den) :
    (rounded num den).natAbs ≤ n := by
  rw [rounded_eq_signed hden hn h, natAbs_signed, ← roundUnits_one hn]
  exact roundUnits_mono hden Nat.one_pos (by rwa [Nat.mul_one])

theorem rounded_error (hden : 0 < den) (hn : Representable n) (h : num.natAbs ≤ n * den) :
    2 ^ 53 * |rounded num den * den - num| ≤ |num| + 2 ^ 52 * den := by
  obtain ⟨hhigh, hlow⟩ := roundUnits_relative_error num.natAbs hden
  rw [abs_rounded_sub hden hn h, Int.abs_eq_natAbs]
  unfold Nat.dist
  omega

theorem rounded_one_error (hn : Representable n) (h : num.natAbs ≤ n) :
    2 ^ 53 * |rounded num 1 - num| ≤ |num| := by
  obtain ⟨hhigh, hlow⟩ := roundUnits_one_error num.natAbs
  have herror := abs_rounded_sub Nat.one_pos hn (by rwa [Nat.mul_one])
  rw [Nat.mul_one, Int.natCast_one, Int.mul_one] at herror
  rw [herror, Int.abs_eq_natAbs]
  unfold Nat.dist
  omega

end Rounded

section Within

/-- Finite, and at most so many ones away from zero. -/
structure Within (bound : Nat) (x : Binary64) : Prop where
  finite : x.isFinite = true
  le : x.position.natAbs ≤ bound * unit

namespace Within

variable {x y : Binary64} {a b n limit : Nat}

/-- A number is not rounded across a bound that is a double. -/
theorem of_rounded {num : Int} {den : Nat} (hx : x.isNaN = false) (hden : 0 < den)
    (hposition : x.position = rounded num den) (hb : b < 2 ^ 53)
    (h : num.natAbs ≤ b * unit * den) : Within b x := by
  have hbound := representable_mul_unit hb
  have hle := natAbs_rounded_le hden hbound h
  rw [← hposition] at hle
  exact ⟨isFinite_of_lt hx (Nat.lt_of_le_of_lt hle hbound.2), hle⟩

theorem add (hx : Within a x) (hy : Within b y) (h : a + b < 2 ^ 53) :
    Within (a + b) (x + y) ∧
      2 ^ 53 * |(x + y).position - (x.position + y.position)| ≤ (a + b) * unit := by
  have hle := hx.le
  have hle' := hy.le
  have hposition := position_add hx.finite hy.finite
  have hsum : (x.position + y.position).natAbs ≤ (a + b) * unit := by
    rw [Nat.add_mul]
    omega
  refine ⟨of_rounded (isNaN_add hx.finite hy.finite) Nat.one_pos hposition h (by omega), ?_⟩
  have herror := rounded_one_error (representable_mul_unit h) hsum
  rw [hposition]
  refine Int.le_trans herror ?_
  rw [Int.abs_eq_natAbs]
  exact_mod_cast hsum

/-- The errors of all steps of a sum, with a limit that holds for every running sum. -/
theorem foldl_add {xs : List Binary64} {count : Nat} (hx : Within (count * b) x)
    (hxs : ∀ y ∈ xs, Within b y) (hsteps : (count + xs.length) * b ≤ limit)
    (hlimit : limit < 2 ^ 53) :
    Within ((count + xs.length) * b) (xs.foldl (· + ·) x) ∧
      2 ^ 53 * |(xs.foldl (· + ·) x).position - (x.position + (xs.map position).sum)| ≤
        xs.length * (limit * unit) := by
  induction xs generalizing x count with
  | nil =>
    refine ⟨hx, ?_⟩
    rw [List.foldl_nil, List.map_nil, List.sum_nil, add_zero, sub_self, abs_zero, mul_zero,
      List.length_nil, Nat.cast_zero, zero_mul]
  | cons y xs ih =>
    obtain ⟨hy, hrest⟩ := List.forall_mem_cons.mp hxs
    have hlength : count + (y :: xs).length = count + 1 + xs.length := by
      rw [List.length_cons]
      omega
    have hnext : count * b + b = (count + 1) * b := (Nat.succ_mul count b).symm
    have hstep : (count + 1) * b ≤ limit :=
      Nat.le_trans (Nat.mul_le_mul_right b (by omega)) hsteps
    rw [hlength] at hsteps ⊢
    obtain ⟨hsum, herror⟩ := hx.add hy (by omega)
    rw [hnext] at hsum
    obtain ⟨htotal, herrors⟩ := ih hsum hrest hsteps
    refine ⟨htotal, ?_⟩
    have hone : ((count * b : Nat) + b : Int) * unit ≤ limit * unit := by
      refine Int.mul_le_mul_of_nonneg_right ?_ (Int.natCast_nonneg _)
      exact_mod_cast Nat.le_trans (Nat.le_of_eq hnext) hstep
    have htriangle := abs_sub_le (xs.foldl (· + ·) (x + y)).position
      ((x + y).position + (xs.map position).sum)
      (x.position + y.position + (xs.map position).sum)
    rw [add_sub_add_right_eq_sub] at htriangle
    rw [List.foldl_cons, List.length_cons, List.map_cons, List.sum_cons, ← Int.add_assoc]
    push_cast
    linarith

theorem two_pow_le_unit : 2 ^ 52 ≤ unit := by decide +kernel

/-- A quotient by the number of terms is within the bound of the terms. -/
theorem div_ofNat (hx : Within (n * b) x) (hpos : 0 < n) (hn : n < 2 ^ 53) (hb : b < 2 ^ 53) :
    Within b (x / ofNat n) ∧
      2 ^ 53 * |(x / ofNat n).position * n - x.position| ≤ n * b * unit + n * unit := by
  obtain ⟨hnumber, hposition⟩ := position_div_ofNat hx.finite hpos hn
  have hle : x.position.natAbs ≤ b * unit * n := by
    have hbound := hx.le
    rwa [Nat.mul_assoc, Nat.mul_comm] at hbound
  refine ⟨of_rounded hnumber hpos hposition hb hle, ?_⟩
  have herror := rounded_error hpos (representable_mul_unit hb) hle
  have habs : |x.position| ≤ n * b * unit := by
    rw [Int.abs_eq_natAbs]
    exact_mod_cast hx.le
  have hsmall : (2 ^ 52 * n : Int) ≤ n * unit := by
    rw [mul_comm]
    exact_mod_cast Nat.mul_le_mul_left n two_pow_le_unit
  rw [hposition]
  linarith

end Within

end Within

end Binary64

end FinalGrades
