import FinalGrades.Proofs.Number.Arithmetic
import FinalGrades.Proofs.Number.Shortest

/-!
Doubles by their places on the number line. The order of doubles is that of their places, and the
place of a result is the place of the exact result, rounded. Rounding keeps the order, so whatever
the exact operations do to the order holds of the operations on doubles.
-/

namespace FinalGrades.Binary64

/-- The exact value in smallest doubles; an infinity stands at the overflow. -/
def position : Binary64 → Int
  | .nan => 0
  | .infinite s => signed s overflow
  | .finite s n _ => signed s n

/-- The place of the double nearest to a quotient, the overflow if there is no such double. -/
def rounded (num : Int) (den : Nat) : Int :=
  signed (decide (num < 0)) (Min.min (roundUnits num.natAbs den) overflow)

section Signed

variable {s : Bool} {n : Nat}

theorem natAbs_signed (s : Bool) (n : Nat) : (signed s n).natAbs = n := by
  cases s <;> simp [signed]

theorem signed_natAbs (a : Int) : signed (decide (a < 0)) a.natAbs = a := by
  by_cases h : a < 0
  · simp only [signed, h, decide_true, if_true]
    omega
  · simp only [signed, h, decide_false, Bool.false_eq_true, if_false]
    omega

/-- A count that is not zero has the sign that its place shows. -/
theorem signed_lt_zero (h : n ≠ 0) : decide (signed s n < 0) = s := by
  cases s
  · simp [signed]
  · simp only [signed, if_true, decide_eq_true_eq]
    omega

theorem signed_mul (s t : Bool) (m n : Nat) :
    signed (s != t) (m * n) = signed s m * signed t n := by
  cases s <;> cases t <;> simp [signed]

theorem overflow_pos : 0 < overflow := by
  unfold overflow
  generalize 2098 = top
  rw [Nat.pow_eq]
  exact Nat.two_pow_pos top

end Signed

section Order

variable {x y : Binary64}

@[simp] theorem position_finite {s : Bool} {n : Nat} {hn : Representable n} :
    (finite s n hn).position = signed s n := rfl

@[simp] theorem position_zero (s : Bool) : (zero s).position = 0 := by
  cases s <;> rfl

theorem position_ofNat {n : Nat} (h : n < 2 ^ 53) : (ofNat n).position = n * unit := by
  rw [ofNat_eq h, position_finite, signed, if_neg Bool.false_ne_true, Nat.cast_mul]

theorem isNaN_of_isFinite (h : x.isFinite = true) : x.isNaN = false := by
  cases x with
  | nan => cases h
  | infinite s => cases h
  | finite s n hn => rfl

theorem isFinite_of_lt (hx : x.isNaN = false) (h : x.position.natAbs < overflow) :
    x.isFinite = true := by
  cases x with
  | nan => cases hx
  | infinite s =>
    rw [position, natAbs_signed] at h
    exact absurd h (Nat.lt_irrefl _)
  | finite s n hn => rfl

theorem eq_finite_of_isFinite (h : x.isFinite = true) : ∃ s n hn, x = finite s n hn := by
  cases x with
  | nan => cases h
  | infinite s => cases h
  | finite s n hn => exact ⟨s, n, hn, rfl⟩

theorem le_iff (hx : x.isNaN = false) (hy : y.isNaN = false) :
    x ≤ y ↔ x.position ≤ y.position := by
  have hpos := overflow_pos
  cases x with
  | nan => cases hx
  | infinite s =>
    cases y with
    | nan => cases hy
    | infinite t =>
      show (s || !t) = true ↔ signed s overflow ≤ signed t overflow
      generalize overflow = top at *
      cases s <;> cases t <;> simp [signed]
      omega
    | finite t n hn =>
      have hlt := hn.2
      show s = true ↔ signed s overflow ≤ signed t n
      generalize overflow = top at *
      cases s <;> cases t <;> simp [signed] <;> omega
  | finite s m hm =>
    cases y with
    | nan => cases hy
    | infinite t =>
      have hlt := hm.2
      show (!t) = true ↔ signed s m ≤ signed t overflow
      generalize overflow = top at *
      cases s <;> cases t <;> simp [signed] <;> omega
    | finite t n hn => exact finite_le_iff

theorem lt_iff (hx : x.isNaN = false) (hy : y.isNaN = false) :
    x < y ↔ x.position < y.position := by
  have hpos := overflow_pos
  cases x with
  | nan => cases hx
  | infinite s =>
    cases y with
    | nan => cases hy
    | infinite t =>
      show (s && !t) = true ↔ signed s overflow < signed t overflow
      generalize overflow = top at *
      cases s <;> cases t <;> simp [signed]
      omega
    | finite t n hn =>
      have hlt := hn.2
      show s = true ↔ signed s overflow < signed t n
      generalize overflow = top at *
      cases s <;> cases t <;> simp [signed] <;> omega
  | finite s m hm =>
    cases y with
    | nan => cases hy
    | infinite t =>
      have hlt := hm.2
      show (!t) = true ↔ signed s m < signed t overflow
      generalize overflow = top at *
      cases s <;> cases t <;> simp [signed] <;> omega
    | finite t n hn => exact finite_lt_iff

end Order

section Rounded

variable {num num' : Int} {den den' : Nat}

theorem roundUnits_zero (den : Nat) : roundUnits 0 den = 0 := by
  simp [roundUnits, nearestEven]

theorem position_ofRatio (s : Bool) (num den : Nat) :
    (ofRatio s num den).position = rounded (signed s num) den := by
  rw [rounded, natAbs_signed]
  by_cases hzero : num = 0
  · subst hzero
    have hfinite : ofRatio s 0 den = zero s :=
      ofRatio_eq_finite representable_zero (roundUnits_zero den)
    rw [hfinite, roundUnits_zero, position_zero, Nat.min_eq_left (Nat.zero_le _)]
    cases s <;> rfl
  · rw [signed_lt_zero hzero]
    by_cases hlt : roundUnits num den < overflow
    · have hfinite : Representable (roundUnits num den) := ⟨gap_dvd_roundUnits num den, hlt⟩
      rw [ofRatio_eq_finite hfinite rfl, position_finite, Nat.min_eq_left (Nat.le_of_lt hlt)]
    · have hinfinite : ofRatio s num den = infinite s := dif_neg hlt
      rw [hinfinite, position, Nat.min_eq_right (Nat.le_of_not_lt hlt)]

theorem rounded_mono (hden : 0 < den) (hden' : 0 < den') (h : num * den' ≤ num' * den) :
    rounded num den ≤ rounded num' den' := by
  have hpos : (0 : Int) < den := Int.natCast_pos.mpr hden
  have hpos' : (0 : Int) < den' := Int.natCast_pos.mpr hden'
  unfold rounded
  by_cases hnum : num < 0
  · by_cases hnum' : num' < 0
    · have hunits : roundUnits num'.natAbs den' ≤ roundUnits num.natAbs den := by
        refine roundUnits_mono hden' hden ?_
        zify
        rw [abs_of_neg hnum, abs_of_neg hnum']
        linarith
      simp only [signed, hnum, hnum', decide_true, if_true]
      omega
    · simp only [signed, hnum, hnum', decide_true, decide_false, if_true, Bool.false_eq_true,
        if_false]
      omega
  · have hle : 0 ≤ num := Int.not_lt.mp hnum
    have hle' : 0 ≤ num' := by
      by_contra hneg
      have hlow : num' * den < 0 := Int.mul_neg_of_neg_of_pos (Int.not_le.mp hneg) hpos
      have hhigh : 0 ≤ num * den' := Int.mul_nonneg hle (Int.le_of_lt hpos')
      omega
    have hunits : roundUnits num.natAbs den ≤ roundUnits num'.natAbs den' := by
      refine roundUnits_mono hden hden' ?_
      zify
      rwa [abs_of_nonneg hle, abs_of_nonneg hle']
    simp only [signed, hnum, Int.not_lt.mpr hle', decide_false, Bool.false_eq_true, if_false]
    omega

/-- A double is not changed by rounding. -/
theorem rounded_one (h : Representable num.natAbs) : rounded num 1 = num := by
  rw [rounded, roundUnits_one h, Nat.min_eq_left (Nat.le_of_lt h.2), signed_natAbs]

theorem rounded_zero (den : Nat) : rounded 0 den = 0 := by
  rw [rounded, Int.natAbs_zero, roundUnits_zero, Nat.min_eq_left (Nat.zero_le _)]
  rfl

theorem rounded_le (hden : 0 < den) (hn : Representable num'.natAbs) (h : num ≤ num' * den) :
    rounded num den ≤ num' := by
  rw [← rounded_one hn]
  refine rounded_mono hden Nat.one_pos ?_
  rwa [Int.natCast_one, Int.mul_one]

theorem le_rounded (hden : 0 < den) (hn : Representable num'.natAbs) (h : num' * den ≤ num) :
    num' ≤ rounded num den := by
  rw [← rounded_one hn]
  refine rounded_mono Nat.one_pos hden ?_
  rwa [Int.natCast_one, Int.mul_one]

theorem rounded_nonneg (hden : 0 < den) (h : 0 ≤ num) : 0 ≤ rounded num den :=
  le_rounded hden representable_zero (by rwa [Int.zero_mul])

theorem rounded_mul_right (num : Int) {factor : Nat} (hden : 0 < den) (h : 0 < factor) :
    rounded (num * factor) (den * factor) = rounded num den := by
  have hproduct : num * factor * den = num * (den * factor : Nat) := by
    push_cast
    ring
  have hpos := Nat.mul_pos hden h
  exact Int.le_antisymm (rounded_mono hpos hden (Int.le_of_eq hproduct))
    (rounded_mono hden hpos (Int.le_of_eq hproduct.symm))

end Rounded

section Operations

variable {x y : Binary64} {n : Nat} {hn : Representable n}

theorem position_add (hx : x.isFinite = true) (hy : y.isFinite = true) :
    (x + y).position = rounded (x.position + y.position) 1 := by
  obtain ⟨s, m, hm, rfl⟩ := eq_finite_of_isFinite hx
  obtain ⟨t, n, hn, rfl⟩ := eq_finite_of_isFinite hy
  rw [add_finite, position_finite, position_finite]
  split
  next hzero => rw [hzero, position_zero, rounded_zero]
  next => rw [position_ofRatio, signed_natAbs]

theorem position_mul (hx : x.isFinite = true) (hy : y.isFinite = true) :
    (x * y).position = rounded (x.position * y.position) unit := by
  obtain ⟨s, m, hm, rfl⟩ := eq_finite_of_isFinite hx
  obtain ⟨t, n, hn, rfl⟩ := eq_finite_of_isFinite hy
  rw [mul_finite, position_ofRatio, signed_mul]
  rfl

theorem position_div (hx : x.isFinite = true) (h : 0 < n) :
    (x / finite false n hn).position = rounded (x.position * unit) n := by
  obtain ⟨s, m, hm, rfl⟩ := eq_finite_of_isFinite hx
  have hsigned : signed (s != false) (m * unit) = signed s m * unit := signed_mul s false m unit
  rw [div_finite (Nat.ne_of_gt h), position_ofRatio, hsigned]
  rfl

/-- A product with a whole number is the multiple, rounded, and a number. -/
theorem position_mul_ofNat (hx : x.isFinite = true) (hpos : 0 < n) (h : n < 2 ^ 53) :
    (x * ofNat n).isNaN = false ∧ (x * ofNat n).position = rounded (x.position * n) 1 := by
  have hunits := Nat.mul_pos hpos unit_pos
  have hscale := rounded_mul_right (x.position * n) Nat.one_pos unit_pos
  rw [Nat.one_mul, Int.mul_assoc, ← Int.natCast_mul] at hscale
  rw [ofNat_eq h, position_mul hx rfl]
  exact ⟨isNaN_mul (isNaN_of_isFinite hx) (Nat.ne_of_gt hunits), hscale⟩

/-- A quotient by a whole number is the part, rounded, and a number. -/
theorem position_div_ofNat (hx : x.isFinite = true) (hpos : 0 < n) (h : n < 2 ^ 53) :
    (x / ofNat n).isNaN = false ∧ (x / ofNat n).position = rounded x.position n := by
  have hunits := Nat.mul_pos hpos unit_pos
  rw [ofNat_eq h, position_div hx hunits, rounded_mul_right _ hpos unit_pos]
  exact ⟨isNaN_div (isNaN_of_isFinite hx) (Nat.ne_of_gt hunits), rfl⟩

theorem position_neg (hx : x.isFinite = true) : (-x).position = -x.position := by
  obtain ⟨s, n, hn, rfl⟩ := eq_finite_of_isFinite hx
  show signed (!s) n = -signed s n
  cases s
  · rfl
  · exact (Int.neg_neg _).symm

theorem position_div_infinite (hx : x.isFinite = true) {t : Bool} :
    (x / infinite t).position = 0 := by
  obtain ⟨s, n, hn, rfl⟩ := eq_finite_of_isFinite hx
  exact position_zero _

theorem isNaN_add (hx : x.isFinite = true) (hy : y.isFinite = true) : (x + y).isNaN = false := by
  obtain ⟨s, m, hm, rfl⟩ := eq_finite_of_isFinite hx
  obtain ⟨t, n, hn, rfl⟩ := eq_finite_of_isFinite hy
  rw [add_finite]
  split
  · rfl
  · exact isNaN_ofRatio _ _ _

theorem position_min (hx : x.isFinite = true) (hy : y.isFinite = true) :
    (Binary64.min x y).position = Min.min x.position y.position := by
  have hlt := lt_iff (isNaN_of_isFinite hy) (isNaN_of_isFinite hx)
  rw [Binary64.min, isNaN_of_isFinite hx, if_neg Bool.false_ne_true]
  by_cases hbelow : y < x
  · rw [if_pos hbelow, Int.min_eq_right (Int.le_of_lt (hlt.mp hbelow))]
  · rw [if_neg hbelow, Int.min_eq_left (Int.not_lt.mp fun h => hbelow (hlt.mpr h))]

end Operations

section Floor

variable {x : Binary64}

/-- The whole number below a double is a double. -/
theorem representable_floor {n : Nat} (hn : Representable n) :
    Representable (n / unit * unit) ∧ Representable ((n + (unit - 1)) / unit * unit) := by
  by_cases hgap : 1074 ≤ gap n
  · -- The double is whole already.
    have hdvd := unit_dvd hn hgap
    rw [Nat.div_mul_cancel hdvd, ceil_mul_self unit_pos hdvd]
    exact ⟨hn, hn⟩
  · have hlt := lt_two_pow_of_gap_lt (Nat.lt_of_not_le hgap)
    rw [Nat.add_comm, ← pow_mul_unit] at hlt
    have hwhole : n / unit < 2 ^ 52 := (Nat.div_lt_iff_lt_mul unit_pos).mpr hlt
    have hceil : (n + (unit - 1)) / unit ≤ n / unit + 1 := by
      rw [← Nat.add_div_right n unit_pos]
      exact Nat.div_le_div_right (by omega)
    exact ⟨representable_mul_unit (by omega), representable_mul_unit (by omega)⟩

theorem neg_ediv (n : Nat) {den : Nat} (h : 0 < den) :
    -(n : Int) / den = -(((n + (den - 1)) / den : Nat) : Int) := by
  have hceil := Nat.div_add_mod (n + (den - 1)) den
  have hmod := Nat.mod_lt (n + (den - 1)) h
  generalize (n + (den - 1)) / den = k at *
  generalize (n + (den - 1)) % den = r at *
  rw [Int.ediv_eq_iff_of_pos (by omega)]
  have hproduct : ((den * k : Nat) : Int) = k * den := by rw [Nat.cast_mul, Int.mul_comm]
  constructor
  · rw [Int.neg_mul]
    omega
  · rw [Int.neg_mul]
    omega

/-- The floor is exact. -/
theorem position_floor (hx : x.isFinite = true) :
    x.floor.position = x.position / unit * unit := by
  obtain ⟨s, n, hn, rfl⟩ := eq_finite_of_isFinite hx
  obtain ⟨hwhole, hceil⟩ := representable_floor hn
  show (ofRatio s ((if s then (n + (unit - 1)) / unit else n / unit) * unit) 1).position = _
  rw [position_finite]
  cases s with
  | false =>
    rw [if_neg Bool.false_ne_true, ofRatio_eq_finite hwhole (roundUnits_one hwhole),
      position_finite]
    simp only [signed, Bool.false_eq_true, if_false, Nat.cast_mul, Int.natCast_ediv]
  | true =>
    rw [if_pos rfl, ofRatio_eq_finite hceil (roundUnits_one hceil), position_finite]
    simp only [signed, if_true, neg_ediv n unit_pos, Nat.cast_mul, Int.neg_mul]

end Floor

section NegativeZero

variable {x : Binary64}

/-- A finite number that is not negative zero has the sign of its place. -/
theorem eq_finite_position (hx : x.isFinite = true) (hne : x ≠ zero true) :
    ∃ hn, x = finite (decide (x.position < 0)) x.position.natAbs hn := by
  obtain ⟨s, n, hn, rfl⟩ := eq_finite_of_isFinite hx
  rw [position_finite, natAbs_signed]
  by_cases hzero : n = 0
  · subst hzero
    cases s
    · exact ⟨hn, rfl⟩
    · exact absurd rfl hne
  · rw [signed_lt_zero hzero]
    exact ⟨hn, rfl⟩

/-- Only the sum of two negative zeros is negative zero. -/
theorem add_ne_negativeZero {y : Binary64} (hx : x.isFinite = true) (hy : y.isFinite = true)
    (hne : y ≠ zero true) : x + y ≠ zero true := by
  obtain ⟨s, m, hm, rfl⟩ := eq_finite_of_isFinite hx
  obtain ⟨t, n, hn, rfl⟩ := eq_finite_of_isFinite hy
  rw [add_finite]
  split
  next hsum =>
    intro hzero
    have hsigns := (finite.inj hzero).1
    obtain ⟨rfl, rfl⟩ := (Bool.and_eq_true s t).mp hsigns
    simp only [signed, if_true] at hsum
    obtain rfl : n = 0 := by omega
    exact hne rfl
  next hsum =>
    intro hzero
    have hposition := congrArg position hzero
    rw [position_ofRatio, signed_natAbs, position_zero] at hposition
    generalize signed s m + signed t n = total at *
    rcases Int.lt_or_gt_of_ne hsum with hneg | hpos
    · have hle : rounded total 1 ≤ -1 := by
        refine rounded_le Nat.one_pos (by decide +kernel) ?_
        omega
      omega
    · have hle : 1 ≤ rounded total 1 := by
        refine le_rounded Nat.one_pos (by decide +kernel) ?_
        omega
      omega

theorem ofRatio_ne_negativeZero (num den : Nat) : ofRatio false num den ≠ zero true := by
  intro hzero
  unfold ofRatio at hzero
  split at hzero
  · exact absurd (finite.inj hzero).1 Bool.false_ne_true
  · cases hzero

theorem floor_ne_negativeZero (hx : x.isFinite = true) (hne : x ≠ zero true) :
    x.floor ≠ zero true := by
  have hpos := unit_pos
  obtain ⟨hn, hfinite⟩ := eq_finite_position hx hne
  intro hzero
  have hposition := congrArg position hzero
  rw [position_floor hx, position_zero] at hposition
  generalize x.position = place at *
  by_cases hneg : place < 0
  · have hquotient : place / (unit : Int) < 0 := Int.ediv_neg_of_neg_of_pos hneg (by omega)
    have hproduct := Int.mul_neg_of_neg_of_pos hquotient (show (0 : Int) < unit by omega)
    omega
  · have hsign : decide (place < 0) = false := decide_eq_false hneg
    rw [hfinite, hsign] at hzero
    exact ofRatio_ne_negativeZero _ _ hzero

end NegativeZero

end FinalGrades.Binary64
