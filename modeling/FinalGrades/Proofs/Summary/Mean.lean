import FinalGrades.Proofs.Number.Error
import FinalGrades.Proofs.Summary

/-!
The summary of a class and the order of its students. The counts, the least and the greatest grade
do not depend on the order, but the mean does: the sum is added up from the left and rounded at each
step, and near a half of a hundredth the last bit of it decides. How much that can do is bounded by
the errors of the steps, which for any class of a real size is one hundredth.
-/

namespace FinalGrades

open Binary64

namespace Binary64

variable {x y : Binary64} {xs ys : List Binary64}

section Swap

theorem add_swap (x y : Binary64) : x + y = y + x := by
  cases x with
  | nan => cases y <;> rfl
  | infinite s =>
    cases y with
    | nan => rfl
    | finite t n hn => rfl
    | infinite t => cases s <;> cases t <;> rfl
  | finite s m hm =>
    cases y with
    | nan => rfl
    | infinite t => rfl
    | finite t n hn =>
      rw [add_finite, add_finite, Int.add_comm, Bool.and_comm]

/-- The empty sum adds nothing. -/
theorem negativeZero_add (x : Binary64) : zero true + x = x := by
  cases x with
  | nan => rfl
  | infinite s => rfl
  | finite s n hn =>
    have htotal : signed true 0 + signed s n = signed s n := Int.zero_add _
    rw [zero, add_finite, htotal, Bool.true_and]
    by_cases hzero : n = 0
    · subst hzero
      cases s <;> rfl
    · have hplace : signed s n ≠ 0 := by
        intro h
        rw [← Int.natAbs_eq_zero, natAbs_signed] at h
        exact hzero h
      rw [if_neg hplace, natAbs_signed, signed_lt_zero hzero]
      exact ofRatio_eq_finite hn (roundUnits_one hn)

/-- One or two numbers have the same sum in either order. -/
theorem sum_perm_of_two (hperm : ys.Perm xs) (h : xs.length ≤ 2) : sum ys = sum xs := by
  rcases xs with _ | ⟨x, _ | ⟨y, _ | ⟨z, rest⟩⟩⟩
  · rw [List.perm_nil.mp hperm]
  · rw [List.perm_singleton.mp hperm]
  · rcases List.perm_pair.mp hperm with rfl | rfl
    · rfl
    · have hpair : ∀ a b : Binary64, sum [a, b] = a + b := fun a b =>
        congrArg (· + b) (negativeZero_add a)
      rw [hpair, hpair, add_swap]
  · simp only [List.length_cons] at h
    omega

theorem sum_ne_negativeZero (hne : xs ≠ []) (hxs : ∀ x ∈ xs, x ≠ zero true)
    (h : (sum xs).isFinite = true) : sum xs ≠ zero true := by
  obtain ⟨front, last, rfl⟩ := (List.eq_nil_or_concat xs).resolve_left hne
  rw [sum, List.concat_eq_append, List.foldl_append, List.foldl_cons, List.foldl_nil] at *
  obtain ⟨hfront, hlast⟩ := isFinite_of_add h
  exact add_ne_negativeZero hfront hlast (hxs last (by simp))

end Swap

section Exact

/--
All of these numbers are multiples of one power of two, and their magnitudes come to at most 2^53
times that power. Whatever their order is, adding them up does not round below the overflow.
-/
structure AddExactly (exponent : Nat) (xs : List Binary64) : Prop where
  finite : ∀ x ∈ xs, x.isFinite = true
  dvd : ∀ x ∈ xs, 2 ^ exponent ∣ x.position.natAbs
  le : (xs.map fun x => x.position.natAbs).sum ≤ 2 ^ 53 * 2 ^ exponent

variable {exponent : Nat}

theorem representable_of_dvd {n : Nat} (hdvd : 2 ^ exponent ∣ n) (hle : n ≤ 2 ^ 53 * 2 ^ exponent)
    (hlt : n < overflow) : Representable n := by
  obtain ⟨k, rfl⟩ := hdvd
  refine ⟨?_, hlt⟩
  rw [Nat.mul_comm] at hle ⊢
  rw [Nat.pow_eq]
  rcases Nat.lt_or_eq_of_le (Nat.le_of_mul_le_mul_right hle (Nat.two_pow_pos _)) with hlt | rfl
  · exact Nat.dvd_trans (Nat.pow_dvd_pow 2 (gap_mul_pow_le hlt)) (Nat.dvd_mul_left _ _)
  · rw [← Nat.pow_add, gap, Nat.log2_two_pow]
    exact Nat.pow_dvd_pow 2 (by omega)

/-- An addition that stays below the overflow is exact, and the sum stands for its terms. -/
theorem AddExactly.step (h : AddExactly exponent (x :: y :: xs))
    (hlt : (x.position + y.position).natAbs < overflow) :
    AddExactly exponent ((x + y) :: xs) ∧ (x + y).position = x.position + y.position := by
  obtain ⟨hx, hmore⟩ := List.forall_mem_cons.mp h.finite
  obtain ⟨hy, hrest⟩ := List.forall_mem_cons.mp hmore
  obtain ⟨hdvd, hmultiples⟩ := List.forall_mem_cons.mp h.dvd
  obtain ⟨hdvd', hdvds⟩ := List.forall_mem_cons.mp hmultiples
  have hle := h.le
  rw [List.map_cons, List.map_cons, List.sum_cons, List.sum_cons] at hle
  have hadd := Int.natAbs_add_le x.position y.position
  have hdvdSum : 2 ^ exponent ∣ (x.position + y.position).natAbs := by
    rw [← Int.natCast_dvd] at hdvd hdvd' ⊢
    exact Int.dvd_add hdvd hdvd'
  have hposition := position_add hx hy
  rw [rounded_one (representable_of_dvd hdvdSum (by omega) hlt)] at hposition
  rw [← hposition] at hdvdSum hadd hlt
  refine ⟨⟨List.forall_mem_cons.mpr ⟨isFinite_of_lt (isNaN_add hx hy) hlt, hrest⟩,
    List.forall_mem_cons.mpr ⟨hdvdSum, hdvds⟩, ?_⟩, hposition⟩
  rw [List.map_cons, List.sum_cons]
  omega

theorem foldl_add_exact (h : AddExactly exponent (x :: xs))
    (hlt : ((x :: xs).map fun x => x.position.natAbs).sum < overflow) :
    (xs.foldl (· + ·) x).isFinite = true ∧
      (xs.foldl (· + ·) x).position = x.position + (xs.map position).sum := by
  induction xs generalizing x with
  | nil => exact ⟨h.finite x List.mem_cons_self, (add_zero _).symm⟩
  | cons y xs ih =>
    rw [List.map_cons, List.map_cons, List.sum_cons, List.sum_cons] at hlt
    have hadd := Int.natAbs_add_le x.position y.position
    obtain ⟨hnext, hposition⟩ := h.step (by omega)
    obtain ⟨hfinite, htotal⟩ := ih hnext (by rw [List.map_cons, List.sum_cons, hposition]; omega)
    refine ⟨hfinite, ?_⟩
    rw [List.foldl_cons, htotal, hposition, List.map_cons, List.sum_cons, Int.add_assoc]

theorem foldl_add_infinite {s : Bool} (h : ∀ x ∈ xs, x.isFinite = true) :
    xs.foldl (· + ·) (infinite s) = infinite s := by
  induction xs with
  | nil => rfl
  | cons x xs ih =>
    obtain ⟨t, n, hn, rfl⟩ := eq_finite_of_isFinite (h x List.mem_cons_self)
    exact ih fun y hy => h y (List.mem_cons_of_mem _ hy)

theorem add_eq_infinite (hx : x.isFinite = true) (hy : y.isFinite = true)
    (h : overflow ≤ (x.position + y.position).natAbs) :
    x + y = infinite (decide (x.position + y.position < 0)) := by
  obtain ⟨s, m, hm, rfl⟩ := eq_finite_of_isFinite hx
  obtain ⟨t, n, hn, rfl⟩ := eq_finite_of_isFinite hy
  rw [position_finite, position_finite] at h ⊢
  have hne : signed s m + signed t n ≠ 0 := by
    intro hzero
    rw [hzero, Int.natAbs_zero] at h
    exact absurd overflow_pos (Nat.not_lt.mpr h)
  rw [add_finite, if_neg hne]
  exact ofRatio_eq_infinite (by rwa [Nat.div_one])

/-- Numbers none of which is positive reach the overflow together in every order. -/
theorem foldl_add_overflow (h : AddExactly exponent (x :: xs))
    (hsign : ∀ y ∈ x :: xs, y.position ≤ 0)
    (hlarge : overflow ≤ ((x :: xs).map fun x => x.position.natAbs).sum) :
    xs.foldl (· + ·) x = infinite true := by
  induction xs generalizing x with
  | nil =>
    obtain ⟨s, n, hn, rfl⟩ := eq_finite_of_isFinite (h.finite x List.mem_cons_self)
    rw [List.map_singleton, List.sum_singleton, position_finite, natAbs_signed] at hlarge
    exact absurd hn.2 (Nat.not_lt.mpr hlarge)
  | cons y xs ih =>
    obtain ⟨hx, hmore⟩ := List.forall_mem_cons.mp hsign
    obtain ⟨hy, hrest⟩ := List.forall_mem_cons.mp hmore
    rw [List.foldl_cons]
    by_cases hlt : (x.position + y.position).natAbs < overflow
    · obtain ⟨hnext, hposition⟩ := h.step hlt
      refine ih hnext (List.forall_mem_cons.mpr ⟨by omega, hrest⟩) ?_
      rw [List.map_cons, List.map_cons, List.sum_cons, List.sum_cons] at hlarge
      rw [List.map_cons, List.sum_cons, hposition]
      omega
    · obtain ⟨hfinite, hfinites⟩ := List.forall_mem_cons.mp h.finite
      obtain ⟨hfinite', hfinites⟩ := List.forall_mem_cons.mp hfinites
      have hlow : x.position + y.position < 0 := by
        have hpos := overflow_pos
        omega
      rw [add_eq_infinite hfinite hfinite' (Nat.not_lt.mp hlt), decide_eq_true hlow]
      exact foldl_add_infinite hfinites

theorem AddExactly.cons_zero (h : AddExactly exponent xs) :
    AddExactly exponent (zero true :: xs) := by
  have hzero : (zero true).position = 0 := position_zero true
  refine ⟨List.forall_mem_cons.mpr ⟨rfl, h.finite⟩, List.forall_mem_cons.mpr ⟨?_, h.dvd⟩, ?_⟩
  · rw [hzero]
    exact Nat.dvd_zero _
  · rw [List.map_cons, List.sum_cons, hzero, Int.natAbs_zero, Nat.zero_add]
    exact h.le

theorem sum_exact (h : AddExactly exponent xs)
    (hlt : (xs.map fun x => x.position.natAbs).sum < overflow) :
    (sum xs).isFinite = true ∧ (sum xs).position = (xs.map position).sum := by
  have hzero : (zero true).position = 0 := position_zero true
  obtain ⟨hfinite, hposition⟩ := foldl_add_exact h.cons_zero
    (by rwa [List.map_cons, List.sum_cons, hzero, Int.natAbs_zero, Nat.zero_add])
  rw [hzero, Int.zero_add] at hposition
  exact ⟨hfinite, hposition⟩

theorem sum_overflow (h : AddExactly exponent xs) (hsign : ∀ x ∈ xs, x.position ≤ 0)
    (hlarge : overflow ≤ (xs.map fun x => x.position.natAbs).sum) : sum xs = infinite true := by
  have hzero : (zero true).position = 0 := position_zero true
  refine foldl_add_overflow h.cons_zero (List.forall_mem_cons.mpr ⟨Int.le_of_eq hzero, hsign⟩) ?_
  rwa [List.map_cons, List.sum_cons, hzero, Int.natAbs_zero, Nat.zero_add]

theorem AddExactly.perm (h : AddExactly exponent xs) (hperm : ys.Perm xs) :
    AddExactly exponent ys := by
  refine ⟨fun x hx => h.finite x (hperm.mem_iff.mp hx),
    fun x hx => h.dvd x (hperm.mem_iff.mp hx), ?_⟩
  rw [(hperm.map fun x => x.position.natAbs).sum_eq]
  exact h.le

/-- So large a power of two divides no positive grade. -/
theorem AddExactly.position_le_zero (h : AddExactly exponent xs)
    (hlarge : overflow ≤ (xs.map fun x => x.position.natAbs).sum)
    (hxs : ∀ x ∈ xs, x ≤ Grade.highest) : ∀ x ∈ xs, x.position ≤ 0 := by
  have hexponent : 2045 ≤ exponent := by
    have hpower := Nat.le_trans hlarge h.le
    rw [← Nat.pow_add] at hpower
    by_contra hsmall
    exact absurd hpower (Nat.not_le.mpr (two_pow_lt_overflow (by omega)))
  intro x hx
  by_contra hpos
  have hdvd := Nat.le_of_dvd (by omega) (h.dvd x hx)
  obtain ⟨hnumber, hnumber'⟩ := isNaN_of_le (hxs x hx)
  have hplace := (le_iff hnumber hnumber').mp (hxs x hx)
  rw [Grade.position_highest] at hplace
  have hwide : 10 * unit < 2 ^ exponent := by
    refine Nat.lt_of_lt_of_le (Nat.mul_lt_mul_of_pos_right (by decide : 10 < 2 ^ 4) unit_pos) ?_
    rw [pow_mul_unit]
    have hle : 4 + 1074 ≤ exponent := by omega
    generalize 4 + 1074 = top at hle ⊢
    exact Nat.pow_le_pow_right (by decide) hle
  omega

theorem sum_perm_of_exact (h : AddExactly exponent xs) (hperm : ys.Perm xs)
    (hxs : ∀ x ∈ xs, x ≠ zero true) (hhigh : ∀ x ∈ xs, x ≤ Grade.highest) : sum ys = sum xs := by
  have htotal := (hperm.map fun x => x.position.natAbs).sum_eq
  by_cases hlt : (xs.map fun x => x.position.natAbs).sum < overflow
  · by_cases hne : xs = []
    · subst hne
      rw [List.perm_nil.mp hperm]
    · have hne' : ys ≠ [] := fun hnil => hne (List.nil_perm.mp (hnil ▸ hperm))
      have hys : ∀ y ∈ ys, y ≠ zero true := fun y hy => hxs y (hperm.mem_iff.mp hy)
      obtain ⟨hfinite, hposition⟩ := sum_exact h hlt
      obtain ⟨hfinite', hposition'⟩ := sum_exact (h.perm hperm) (by rwa [htotal])
      refine eq_of_position hfinite' hfinite (sum_ne_negativeZero hne' hys hfinite')
        (sum_ne_negativeZero hne hxs hfinite) ?_
      rw [hposition, hposition', (hperm.map position).sum_eq]
  · -- Grades are at most ten, so that only negative ones can come to the overflow.
    have hlarge := Nat.not_lt.mp hlt
    have hsign := h.position_le_zero hlarge hhigh
    rw [sum_overflow h hsign hlarge, sum_overflow (h.perm hperm)
      (fun y hy => hsign y (hperm.mem_iff.mp hy)) (by rwa [htotal])]

end Exact

section Bounded

variable {bound : Nat}

/-- Numbers between a negative whole number and the highest grade. -/
theorem within_of_between (hbound : 10 ≤ bound) (hsize : bound < 2 ^ 53) (hlow : -ofNat bound ≤ x)
    (hhigh : x ≤ Grade.highest) : Within bound x := by
  have hfinite : (ofNat bound).isFinite = true := by
    rw [ofNat_eq hsize]
    rfl
  have hnegative := (position_neg hfinite).trans (congrArg Neg.neg (position_ofNat hsize))
  have hpos := unit_pos
  obtain ⟨hnumber', hnumber⟩ := isNaN_of_le hlow
  have hplace := (le_iff hnumber' hnumber).mp hlow
  have hplace' := (le_iff hnumber (isNaN_of_isFinite Grade.isFinite_highest)).mp hhigh
  rw [hnegative] at hplace
  rw [Grade.position_highest] at hplace'
  have hten : 10 * unit ≤ bound * unit := Nat.mul_le_mul_right unit hbound
  have hle : x.position.natAbs ≤ bound * unit := by omega
  exact ⟨isFinite_of_lt hnumber (Nat.lt_of_le_of_lt hle (representable_mul_unit hsize).2), hle⟩

/-- The sum of bounded numbers and the exact sum of their places. -/
theorem sum_error (hxs : ∀ x ∈ xs, Within bound x) (h : xs.length * bound < 2 ^ 53) :
    Within (xs.length * bound) (sum xs) ∧
      2 ^ 53 * |(sum xs).position - (xs.map position).sum| ≤
        xs.length * ((xs.length * bound : Nat) * unit) := by
  have hzero : (zero true).position = 0 := position_zero true
  have hstart : Within (0 * bound) (zero true) := ⟨rfl, by
    rw [hzero, Int.natAbs_zero]
    exact Nat.zero_le _⟩
  have hsteps : (0 + xs.length) * bound ≤ xs.length * bound := by rw [Nat.zero_add]
  have hsum := hstart.foldl_add hxs hsteps h
  rwa [hzero, Int.zero_add, Nat.zero_add] at hsum

theorem within_half : Within 1 Grade.half := by
  obtain ⟨units, _, hunits, hhalf⟩ := Grade.half_eq
  refine ⟨Grade.isFinite_half, ?_⟩
  rw [hhalf, position_finite, natAbs_signed]
  omega

/-- The scaling to hundredths and the half that is added to it. -/
theorem scaled_error (hx : Within bound x) (h : 100 * bound + 1 < 2 ^ 53) :
    Within (100 * bound + 1) (x * 100 + Grade.half) ∧
      2 ^ 53 * |(x * 100 + Grade.half).position - (100 * x.position + Grade.half.position)| ≤
        (200 * bound + 1) * unit := by
  have hhundred : (100 : Binary64) = ofNat 100 := rfl
  obtain ⟨hnumber, hposition⟩ := position_mul_ofNat (n := 100) hx.finite (by decide) (by decide)
  rw [Nat.cast_ofNat, Int.mul_comm, ← hhundred] at hposition
  rw [← hhundred] at hnumber
  have hle : (100 * x.position).natAbs ≤ 100 * bound * unit := by
    rw [Int.natAbs_mul, Nat.mul_assoc]
    exact Nat.mul_le_mul_left 100 hx.le
  have hscaled : Within (100 * bound) (x * 100) :=
    .of_rounded hnumber Nat.one_pos hposition (by omega) (by rwa [Nat.mul_one])
  obtain ⟨hwithin, hsum⟩ := hscaled.add within_half h
  refine ⟨hwithin, ?_⟩
  have hproduct := rounded_one_error (representable_mul_unit (n := 100 * bound) (by omega)) hle
  rw [← hposition, Int.abs_eq_natAbs (100 * x.position)] at hproduct
  have hlarge : ((100 * x.position).natAbs : Int) ≤ 100 * bound * unit := by exact_mod_cast hle
  have htriangle := abs_sub_le (x * 100 + Grade.half).position
    ((x * 100).position + Grade.half.position) (100 * x.position + Grade.half.position)
  rw [add_sub_add_right_eq_sub] at htriangle
  push_cast at hsum
  linarith

end Bounded

end Binary64

namespace Summary

section Mean

variable {xs ys : List Binary64} {bound : Nat} {x y : Binary64}

/-- Before it is cut to hundredths the mean is near the exact one, in whatever order it is found. -/
theorem meanOf_error (hne : xs ≠ []) (hxs : ∀ x ∈ xs, Within bound x) (hbound : 10 ≤ bound)
    (hsize : xs.length * bound ≤ 10 ^ 13) :
    ∃ place : Int, meanOf xs = Grade.ofHundredths (place / unit) ∧
      (meanOf xs).isFinite = true ∧
      2 ^ 53 * |place * xs.length -
          (100 * (xs.map position).sum + Grade.half.position * xs.length)| ≤
        xs.length * ((100 * (xs.length * bound) + 300 * bound + 101) * unit) := by
  have hpos : 0 < xs.length := List.length_pos_iff.mpr hne
  have hlength : xs.length * 10 ≤ xs.length * bound := Nat.mul_le_mul_left _ hbound
  have hterm : 1 * bound ≤ xs.length * bound := Nat.mul_le_mul_right _ hpos
  obtain ⟨hsum, hsumError⟩ := sum_error hxs (by omega)
  obtain ⟨hmean, hmeanError⟩ := hsum.div_ofNat hpos (by omega) (by omega)
  obtain ⟨hscaled, hscaledError⟩ := scaled_error hmean (by omega)
  refine ⟨_, Grade.roundHalfUp_eq_ofHundredths hscaled.finite,
    Grade.isFinite_roundHalfUp_of_sum hscaled.finite, ?_⟩
  generalize (sum xs / ofNat xs.length * 100 + Grade.half).position = place at *
  generalize (sum xs / ofNat xs.length).position = mean at *
  generalize (sum xs).position = total at *
  generalize (xs.map position).sum = exact at *
  generalize Grade.half.position = half at *
  generalize (unit : Int) = u at *
  have hcount : (0 : Int) ≤ xs.length := Int.natCast_nonneg _
  have hscaledErrors := Int.mul_le_mul_of_nonneg_left hscaledError hcount
  have hsplit : place * xs.length - (100 * exact + half * xs.length) =
      (place - (100 * mean + half)) * xs.length +
        (100 * (mean * xs.length - total) + 100 * (total - exact)) := by
    ring
  have htriangle := abs_add_le ((place - (100 * mean + half)) * xs.length)
    (100 * (mean * xs.length - total) + 100 * (total - exact))
  have htriangle' := abs_add_le (100 * (mean * xs.length - total)) (100 * (total - exact))
  rw [← hsplit, abs_mul, Nat.abs_cast] at htriangle
  rw [abs_mul 100, abs_mul 100, abs_of_pos (show (0 : Int) < 100 by decide)] at htriangle'
  push_cast at *
  linarith

/-- Numbers less than a unit apart lie in the same unit or in neighbouring ones. -/
theorem abs_ediv_sub_le {p q u : Int} (hu : 0 < u) (h : |p - q| < u) : |p / u - q / u| ≤ 1 := by
  have hnext : ∀ {a b : Int}, a ≤ b + u → a / u ≤ b / u + 1 := by
    intro a b hle
    have hdivided := Int.ediv_le_ediv hu hle
    have hsucc := Int.add_mul_ediv_right b 1 (ne_of_gt hu)
    rw [Int.one_mul] at hsucc
    rwa [hsucc] at hdivided
  obtain ⟨hlow, hhigh⟩ := abs_lt.mp h
  have hp := hnext (a := p) (b := q) (by omega)
  have hq := hnext (a := q) (b := p) (by omega)
  exact abs_le.mpr ⟨by omega, by omega⟩

/-- Two numbers of hundredths, at most one apart, each as near as a double can be. -/
def OneApart (x y : Binary64) : Prop :=
  ∃ k l : Int, x.IsNearest (k / 100) ∧ y.IsNearest (l / 100) ∧ |k - l| ≤ 1

theorem meanOf_perm (hperm : ys.Perm xs) (hne : xs ≠ []) (hxs : ∀ x ∈ xs, Within bound x)
    (hbound : 10 ≤ bound) (hsize : xs.length * bound ≤ 10 ^ 13) :
    OneApart (meanOf ys) (meanOf xs) := by
  have hne' : ys ≠ [] := fun hnil => hne (List.nil_perm.mp (hnil ▸ hperm))
  have hys : ∀ y ∈ ys, Within bound y := fun y hy => hxs y (hperm.mem_iff.mp hy)
  have hpos : 0 < xs.length := List.length_pos_iff.mpr hne
  have hterm : 1 * bound ≤ xs.length * bound := Nat.mul_le_mul_right _ hpos
  -- The doubled error of one order is less than one unit.
  have hsmall : (2 * (100 * (xs.length * bound) + 300 * bound + 101) : Int) < 2 ^ 53 := by
    norm_cast
    omega
  obtain ⟨p, hp, hfinite, herror⟩ := meanOf_error hne hxs hbound hsize
  obtain ⟨q, hq, hfinite', herror'⟩ := meanOf_error hne' hys hbound (by rwa [hperm.length_eq])
  rw [hperm.length_eq, (hperm.map position).sum_eq] at herror'
  rw [hp] at hfinite ⊢
  rw [hq] at hfinite' ⊢
  refine ⟨q / unit, p / unit, Grade.isNearest_ofHundredths hfinite',
    Grade.isNearest_ofHundredths hfinite, ?_⟩
  have hunit : (0 : Int) < unit := Int.natCast_pos.mpr unit_pos
  have hcount : (0 : Int) < xs.length := Int.natCast_pos.mpr hpos
  refine abs_ediv_sub_le hunit ?_
  generalize 100 * (xs.map position).sum + Grade.half.position * xs.length = exact at *
  generalize (100 * (xs.length * bound) + 300 * bound + 101 : Int) = error at *
  generalize (unit : Int) = u at *
  have htriangle := abs_sub_le (q * xs.length) exact (p * xs.length)
  rw [← sub_mul, abs_mul, Nat.abs_cast, abs_sub_comm exact] at htriangle
  have hscaled : xs.length * (2 ^ 53 * |q - p|) ≤ xs.length * (2 * error * u) := by linarith
  have hle := le_of_mul_le_mul_left hscaled hcount
  have hlt := mul_lt_mul_of_pos_right hsmall hunit
  linarith

end Mean

section Order

variable {formula : String} {roster shuffled : List RosterEntry} {limits : Limits}
  {finals others : List StudentFinal} {summary other : Summary}

/-- The summaries differ in nothing but the value of the mean. -/
structure SameButMean (other summary : Summary) : Prop where
  students : other.students = summary.students
  graded : other.graded = summary.graded
  pending : other.pending = summary.pending
  least : other.least = summary.least
  greatest : other.greatest = summary.greatest
  mean : other.mean.isSome = summary.mean.isSome

theorem SameButMean.eq (h : SameButMean other summary) (hmean : other.mean = summary.mean) :
    other = summary := by
  obtain ⟨students, graded, pending, mean, least, greatest⟩ := other
  obtain ⟨rfl, rfl, rfl, rfl, rfl, _⟩ := h
  obtain rfl : mean = summary.mean := hmean
  rfl

theorem grades_perm (h : others.Perm finals) : (grades others).Perm (grades finals) :=
  h.filterMap _

theorem sameButMean_of_perm (hperm : others.Perm finals)
    (hfinals : ∀ grade ∈ grades finals, IsFinalGrade grade) :
    SameButMean (ofFinals others) (ofFinals finals) := by
  have hgrades := grades_perm hperm
  refine ⟨hperm.length_eq, hgrades.length_eq, ?_, takes_min.reduce_perm hgrades hfinals,
    takes_max.reduce_perm hgrades hfinals, ?_⟩
  · exact congrArg₂ (· - ·) hperm.length_eq hgrades.length_eq
  · rw [mean_ofFinals, mean_ofFinals, hgrades.isEmpty_eq]
    split
    · rfl
    · rw [Option.isSome_some, Option.isSome_some]

theorem mean_eq_of_sum (hperm : others.Perm finals)
    (hsum : sum (grades others) = sum (grades finals)) :
    (ofFinals others).mean = (ofFinals finals).mean := by
  have hgrades := grades_perm hperm
  rw [mean_ofFinals, mean_ofFinals, hgrades.isEmpty_eq, meanOf, meanOf, hsum, hgrades.length_eq]

/--
In every order of the students the summary has the same counts, the same least and greatest grade,
and a mean or none. The mean itself is the same for one or two grades and for grades that add up
exactly. Of other grades, none below a bound that together they do not take far, the means in two
orders are the same hundredths or neighbouring ones.
-/
theorem ofFinals_of_perm (formula : String) (limits : Limits) (roster shuffled : List RosterEntry)
    (hperm : shuffled.Perm roster) :
    SameButMean (ofFinals (Roster.finals formula shuffled limits))
        (ofFinals (Roster.finals formula roster limits)) ∧
      ((ofFinals (Roster.finals formula roster limits)).graded ≤ 2 ∨
          (∃ exponent, AddExactly exponent (grades (Roster.finals formula roster limits))) →
        ofFinals (Roster.finals formula shuffled limits) =
          ofFinals (Roster.finals formula roster limits)) ∧
      ∀ bound : Nat, 10 ≤ bound →
        (ofFinals (Roster.finals formula roster limits)).graded * bound ≤ 10 ^ 13 →
        (∀ grade ∈ grades (Roster.finals formula roster limits), -ofNat bound ≤ grade) →
        ∀ mean ∈ (ofFinals (Roster.finals formula shuffled limits)).mean,
          ∀ usual ∈ (ofFinals (Roster.finals formula roster limits)).mean,
            OneApart mean usual := by
  have hfinals := finals_perm formula limits hperm
  have hgrades := grades_perm hfinals
  have hall : ∀ grade ∈ grades (Roster.finals formula roster limits), IsFinalGrade grade :=
    fun grade hgrade => isFinalGrade_of_mem_grades hgrade
  have hsame := sameButMean_of_perm hfinals hall
  refine ⟨hsame, fun h => hsame.eq (mean_eq_of_sum hfinals ?_), ?_⟩
  · rcases h with hfew | ⟨exponent, hexact⟩
    · exact sum_perm_of_two hgrades hfew
    · exact sum_perm_of_exact hexact hgrades
        (fun grade hgrade => (hall grade hgrade).not_negativeZero)
        fun grade hgrade => (hall grade hgrade).le_highest
  · intro bound hbound hsize hlow mean hmean usual husual
    rw [mean_ofFinals] at hmean husual
    by_cases hnone : (grades (Roster.finals formula roster limits)).isEmpty = true
    · rw [if_pos hnone] at husual
      cases husual
    · rw [hgrades.isEmpty_eq, if_neg hnone] at hmean
      rw [if_neg hnone] at husual
      obtain rfl := Option.mem_some_iff.mp hmean
      obtain rfl := Option.mem_some_iff.mp husual
      have hne : grades (Roster.finals formula roster limits) ≠ [] :=
        mt List.isEmpty_iff.mpr hnone
      have hpos := List.length_pos_iff.mpr hne
      have hsize' : (grades (Roster.finals formula roster limits)).length * bound ≤ 10 ^ 13 := hsize
      have hterm : 1 * bound ≤ (grades (Roster.finals formula roster limits)).length * bound :=
        Nat.mul_le_mul_right _ hpos
      refine meanOf_perm hgrades hne (fun grade hgrade => ?_) hbound hsize'
      exact within_of_between hbound (by omega) (hlow grade hgrade) (hall grade hgrade).le_highest

section Classes

/-- A class with one component, and the grade of each student in it. -/
def classOf (students : List (String × Binary64)) : List RosterEntry :=
  students.map fun (id, grade) => ⟨id, none, .ofList [("P1", some grade)]⟩

/-- The mean of these grades is so near to a half of a hundredth that the last bit decides. -/
def fourStudents : List RosterEntry :=
  classOf [("a", ofDecimal false 91 (-1)), ("b", ofDecimal false 67 (-1)),
    ("c", ofDecimal false 98 (-1)), ("d", ofDecimal false 77 (-1))]

/-- These grades are quarters and add up exactly. -/
def threeStudents : List RosterEntry :=
  classOf [("a", 10), ("b", ofDecimal false 75 (-1)), ("c", ofDecimal false 25 (-2))]

theorem finals_classOf (students : List RosterEntry) :
    Roster.finals "P1" students {} = Roster.finalsOf ⟨"P1", .variable "P1"⟩ students :=
  Roster.finals_of_parse (by cbv) students

theorem ofFinals_of_perm_classes :
    (fourStudents.rotate 1).Perm fourStudents ∧
    SameButMean (ofFinals (Roster.finals "P1" (fourStudents.rotate 1) {}))
      (ofFinals (Roster.finals "P1" fourStudents {})) ∧
    (ofFinals (Roster.finals "P1" fourStudents {})).graded * 10 ≤ 10 ^ 13 ∧
    (∀ grade ∈ grades (Roster.finals "P1" fourStudents {}), -ofNat 10 ≤ grade) ∧
    (∃ mean ∈ (ofFinals (Roster.finals "P1" (fourStudents.rotate 1) {})).mean,
      ∃ usual ∈ (ofFinals (Roster.finals "P1" fourStudents {})).mean, OneApart mean usual) ∧
    threeStudents.reverse.Perm threeStudents ∧
    AddExactly 1072 (grades (Roster.finals "P1" threeStudents {})) ∧
    ofFinals (Roster.finals "P1" threeStudents.reverse {}) =
      ofFinals (Roster.finals "P1" threeStudents {}) := by
  have hrotated := List.rotate_perm fourStudents 1
  have hreversed := List.reverse_perm threeStudents
  obtain ⟨hsame, _, hapart⟩ := ofFinals_of_perm "P1" {} _ _ hrotated
  obtain ⟨_, hequal, _⟩ := ofFinals_of_perm "P1" {} _ _ hreversed
  rw [finals_classOf, finals_classOf] at hsame hapart hequal ⊢
  rw [finals_classOf, finals_classOf]
  have hsize : (ofFinals (Roster.finalsOf ⟨"P1", .variable "P1"⟩ fourStudents)).graded * 10 ≤
      10 ^ 13 := by decide +kernel
  have hlow : ∀ grade ∈ grades (Roster.finalsOf ⟨"P1", .variable "P1"⟩ fourStudents),
      -ofNat 10 ≤ grade := by decide +kernel
  have hmean : (ofFinals (Roster.finalsOf ⟨"P1", .variable "P1"⟩ (fourStudents.rotate 1))).mean =
      some (ofDecimal false 832 (-2)) := by decide +kernel
  have husual : (ofFinals (Roster.finalsOf ⟨"P1", .variable "P1"⟩ fourStudents)).mean =
      some (ofDecimal false 833 (-2)) := by decide +kernel
  have hexact : AddExactly 1072 (grades (Roster.finalsOf ⟨"P1", .variable "P1"⟩ threeStudents)) :=
    ⟨by decide +kernel, by decide +kernel, by decide +kernel⟩
  exact ⟨hrotated, hsame, hsize, hlow,
    ⟨_, hmean, _, husual, hapart 10 (Nat.le_refl 10) hsize hlow _ hmean _ husual⟩, hreversed,
    hexact, hequal (.inr ⟨_, hexact⟩)⟩

/-- Where the first of the four students comes last, the mean is 8.32 and not 8.33. -/
theorem ofFinals_ne_of_perm :
    (fourStudents.rotate 1).Perm fourStudents ∧
    (ofFinals (Roster.finals "P1" fourStudents {})).mean = some (ofDecimal false 833 (-2)) ∧
    (ofFinals (Roster.finals "P1" (fourStudents.rotate 1) {})).mean =
      some (ofDecimal false 832 (-2)) ∧
    ofFinals (Roster.finals "P1" (fourStudents.rotate 1) {}) ≠
      ofFinals (Roster.finals "P1" fourStudents {}) := by
  rw [finals_classOf, finals_classOf]
  exact ⟨List.rotate_perm _ 1, by decide +kernel⟩

end Classes

end Order

end Summary

end FinalGrades
