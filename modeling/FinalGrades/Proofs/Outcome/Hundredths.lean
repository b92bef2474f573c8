import FinalGrades.Proofs.Outcome.Decision
import FinalGrades.Proofs.Number.Nearest

/-!
The final grade as a whole number of hundredths. The cap, the scaling, the rounding and the floor
all keep the order, so a grade is the double nearest to some hundredths that never pass a thousand,
and a value of ten or more gives ten.
-/

namespace FinalGrades

open Binary64

namespace Grade

/-- The hundredths that the value in a place is rounded to, once it is capped. -/
def hundredths (position : Int) : Int :=
  rounded (rounded (Min.min position (10 * unit) * (100 * unit)) unit + half.position) 1 / unit

/-- The double nearest to a number of hundredths. -/
def ofHundredths (k : Int) : Binary64 :=
  ofRatio (decide (k < 0)) (k.natAbs * unit) 100

variable {raw : Binary64} {k l : Int}

section Hundredths

theorem hundredths_mono {p q : Int} (h : p ≤ q) : hundredths p ≤ hundredths q := by
  have hunit : (0 : Int) < unit := Int.natCast_pos.mpr unit_pos
  unfold hundredths
  refine Int.ediv_le_ediv hunit ?_
  refine rounded_mono Nat.one_pos Nat.one_pos ?_
  refine Int.mul_le_mul_of_nonneg_right ?_ (Int.natCast_nonneg _)
  refine Int.add_le_add_right ?_ _
  refine rounded_mono unit_pos unit_pos ?_
  refine Int.mul_le_mul_of_nonneg_right ?_ (Int.natCast_nonneg _)
  refine Int.mul_le_mul_of_nonneg_right ?_ (by omega)
  omega

theorem hundredths_highest : hundredths (10 * unit) = 1000 := by
  decide +kernel

theorem hundredths_lowest : hundredths 0 = 0 := by
  decide +kernel

theorem hundredths_le (p : Int) : hundredths p ≤ 1000 := by
  have hcap : hundredths p = hundredths (Min.min p (10 * unit)) := by
    unfold hundredths
    rw [Int.min_assoc, Int.min_self]
  rw [hcap, ← hundredths_highest]
  exact hundredths_mono (Int.min_le_right _ _)

theorem hundredths_of_highest_le {p : Int} (h : 10 * unit ≤ p) : hundredths p = 1000 := by
  refine Int.le_antisymm (hundredths_le p) ?_
  rw [← hundredths_highest]
  exact hundredths_mono h

end Hundredths

section OfHundredths

theorem position_ofHundredths (k : Int) : (ofHundredths k).position = rounded (k * unit) 100 := by
  have hsigned : signed (decide (k < 0)) (k.natAbs * unit) = k * unit := by
    rw [← signed_mul_nat, signed_natAbs]
  rw [ofHundredths, position_ofRatio, hsigned]

theorem position_ofHundredths_mono (h : k ≤ l) :
    (ofHundredths k).position ≤ (ofHundredths l).position := by
  rw [position_ofHundredths, position_ofHundredths]
  refine rounded_mono (by decide) (by decide) ?_
  refine Int.mul_le_mul_of_nonneg_right ?_ (by omega)
  exact Int.mul_le_mul_of_nonneg_right h (Int.natCast_nonneg _)

theorem ofHundredths_highest : ofHundredths 1000 = 10 := by
  decide +kernel

theorem ofHundredths_lowest : ofHundredths 0 = 0 := by
  decide +kernel

theorem ofHundredths_ne_negativeZero (k : Int) : ofHundredths k ≠ zero true := by
  by_cases hneg : k < 0
  · intro hzero
    have hposition := congrArg position hzero
    rw [position_ofHundredths, position_zero] at hposition
    have hone : (100 : Int) ≤ unit := by decide +kernel
    have hle : rounded (k * unit) 100 ≤ -1 := by
      refine rounded_le (by decide) (by decide +kernel) ?_
      have hproduct : k * unit ≤ -1 * unit :=
        Int.mul_le_mul_of_nonneg_right (by omega) (by omega)
      omega
    omega
  · have hsign : decide (k < 0) = false := decide_eq_false hneg
    rw [ofHundredths, hsign]
    exact ofRatio_ne_negativeZero _ _

theorem isNearest_ofHundredths (h : (ofHundredths k).isFinite = true) :
    IsNearest (ofHundredths k) (k / 100) := by
  have hunit : (unit : ℚ) ≠ 0 := Nat.cast_ne_zero.mpr (Nat.ne_of_gt unit_pos)
  have hnearest := isNearest_ofRatio (by decide) h
  have hquotient : (signed (decide (k < 0)) (k.natAbs * unit) : ℚ) / ((100 : Nat) * unit) =
      k / 100 := by
    rw [← signed_mul_nat, signed_natAbs, Int.cast_mul, Int.cast_natCast, Nat.cast_ofNat,
      mul_div_mul_right _ _ hunit]
  rwa [hquotient] at hnearest

end OfHundredths

section Rounded

theorem roundHalfUp_hundredths (value : Binary64) :
    roundHalfUp value 2 = (value * 100 + half).floor / 100 := by
  rw [roundHalfUp, power_two]

/-- The place of the capped value, scaled to hundredths. -/
theorem position_scaled (hraw : raw.isFinite = true) :
    (Binary64.min raw highest * 100).position =
      rounded (Min.min raw.position (10 * unit) * (100 * unit)) unit := by
  rw [position_mul (isFinite_min hraw isFinite_highest) (by decide +kernel),
    position_min hraw isFinite_highest, position_highest, position_hundred]

/-- A whole number over a hundred. -/
theorem div_hundred {x : Binary64} (hx : x.isFinite = true) (hne : x ≠ zero true)
    (h : x.position = k * unit) : x / 100 = ofHundredths k := by
  obtain ⟨_, hhundred⟩ := hundred_eq
  obtain ⟨_, hwhole⟩ := eq_finite_position hx hne
  have hunit : (0 : Int) < unit := Int.natCast_pos.mpr unit_pos
  have hpositive : 0 < 100 * unit := Nat.mul_pos (by decide) unit_pos
  have hsign : decide (k * unit < 0) = decide (k < 0) := by
    rw [decide_eq_decide, ← not_le, ← not_le, mul_nonneg_iff_of_pos_right hunit]
  have hunits : (k * unit).natAbs = k.natAbs * unit := by
    rw [Int.natAbs_mul, Int.natAbs_natCast]
  rw [hwhole, hhundred, div_finite (Nat.ne_of_gt hpositive), ofHundredths, Bool.bne_false]
  simp only [h, hsign, hunits]
  refine ofRatio_congr hpositive (by decide) ?_
  rw [Nat.mul_assoc, Nat.mul_comm unit 100]

/-- Where the half can be added, rounding gives the double nearest to a number of hundredths. -/
theorem roundHalfUp_eq_ofHundredths {value : Binary64}
    (h : (value * 100 + half).isFinite = true) :
    roundHalfUp value 2 = ofHundredths ((value * 100 + half).position / unit) := by
  have hnonzero : value * 100 + half ≠ zero true :=
    add_ne_negativeZero (isFinite_of_add h).1 isFinite_half half_ne_negativeZero
  have hfloor : (value * 100 + half).floor.isFinite = true := by rw [isFinite_floor, h]
  rw [roundHalfUp_hundredths]
  exact div_hundred hfloor (floor_ne_negativeZero h hnonzero) (position_floor h)

theorem isFinite_roundHalfUp_of_sum {value : Binary64}
    (h : (value * 100 + half).isFinite = true) : (roundHalfUp value 2).isFinite = true := by
  obtain ⟨_, hhundred⟩ := hundred_eq
  have hfloor : (value * 100 + half).floor.isFinite = true := by rw [isFinite_floor, h]
  rw [roundHalfUp_hundredths]
  generalize (value * 100 + half).floor = whole at *
  rw [hhundred, isFinite_div_of_unit_le (Nat.le_mul_of_pos_left _ (by decide)), hfloor]

/-- Rounding a capped value gives the double nearest to its hundredths. -/
theorem roundHalfUp_eq (h : CanBeRounded raw) :
    roundHalfUp (Binary64.min raw highest) 2 = ofHundredths (hundredths raw.position) := by
  obtain ⟨hraw, hscaled⟩ := h
  have hsum : (Binary64.min raw highest * 100 + half).isFinite = true := by
    obtain ⟨s, m, hm, heq⟩ := eq_finite_of_isFinite hscaled
    rw [heq]
    exact isFinite_add_half (mul_hundred_eq_finite (min_le hraw isFinite_highest) heq)
  rw [roundHalfUp_eq_ofHundredths hsum, position_add hscaled isFinite_half, position_scaled hraw,
    hundredths]

/-- No value from zero on is too large for the rounding. -/
theorem canBeRounded_of_nonneg (hraw : raw.isFinite = true) (h : 0 ≤ raw.position) :
    CanBeRounded raw := by
  have hunit : (0 : Int) < unit := Int.natCast_pos.mpr unit_pos
  have hthousand : Representable ((1000 * unit : Nat) : Int).natAbs :=
    representable_mul_unit (by decide)
  have hcap : 0 ≤ Min.min raw.position (10 * unit) := by omega
  have hlow : 0 ≤ (Binary64.min raw highest * 100).position := by
    rw [position_scaled hraw]
    exact rounded_nonneg unit_pos (Int.mul_nonneg hcap (by omega))
  have hhigh : (Binary64.min raw highest * 100).position ≤ (1000 * unit : Nat) := by
    rw [position_scaled hraw]
    refine rounded_le unit_pos hthousand ?_
    have hproduct : Min.min raw.position (10 * unit) * (100 * unit) ≤ 10 * unit * (100 * unit) :=
      Int.mul_le_mul_of_nonneg_right (Int.min_le_right _ _) (by omega)
    refine Int.le_trans hproduct (Int.le_of_eq ?_)
    push_cast
    generalize (unit : Int) = u
    ring
  have hnumber : (Binary64.min raw highest * 100).isNaN = false := by
    obtain ⟨_, hhundred⟩ := hundred_eq
    rw [hhundred]
    exact isNaN_mul (isNaN_of_isFinite (isFinite_min hraw isFinite_highest))
      (Nat.mul_ne_zero (by decide) (by omega))
  have hlast := hthousand.2
  rw [Int.natAbs_natCast] at hlast
  exact ⟨hraw, isFinite_of_lt hnumber (by omega)⟩

end Rounded

end Grade

section FinalGrade

variable {raw grade : Binary64}

theorem finalGrade?_eq_some_iff : finalGrade? raw = some grade ↔
    CanBeRounded raw ∧ Grade.ofHundredths (Grade.hundredths raw.position) = grade := by
  rw [finalGrade?_eq]
  by_cases h : CanBeRounded raw
  · rw [if_pos h, Grade.roundHalfUp_eq h, Option.some_inj, and_iff_right h]
  · simp [h]

theorem finalGrade?_of_nonneg (hraw : raw.isFinite = true) (h : 0 ≤ raw.position) :
    finalGrade? raw = some (Grade.ofHundredths (Grade.hundredths raw.position)) :=
  finalGrade?_eq_some_iff.mpr ⟨Grade.canBeRounded_of_nonneg hraw h, rfl⟩

/-- A number of hundredths up to a thousand, as near as a double can be. -/
structure IsFinalGrade (grade : Binary64) : Prop where
  finite : grade.isFinite = true
  le_highest : grade ≤ Grade.highest
  not_negativeZero : grade ≠ zero true
  hundredths : ∃ k : Int, k ≤ 1000 ∧ grade.IsNearest (k / 100)

theorem isFinalGrade_of_finalGrade? (h : finalGrade? raw = some grade) : IsFinalGrade grade := by
  obtain ⟨hround, rfl⟩ := finalGrade?_eq_some_iff.mp h
  have hle := Grade.hundredths_le raw.position
  have hfinite : (Grade.ofHundredths (Grade.hundredths raw.position)).isFinite = true := by
    rw [← Grade.roundHalfUp_eq hround, Grade.isFinite_roundHalfUp (min_le hround.1
      Grade.isFinite_highest), hround.2]
  have hcap := Grade.position_ofHundredths_mono hle
  refine ⟨hfinite, ?_, Grade.ofHundredths_ne_negativeZero _, _, hle,
    Grade.isNearest_ofHundredths hfinite⟩
  rw [Grade.ofHundredths_highest] at hcap
  exact (le_iff (isNaN_of_isFinite hfinite) (isNaN_of_isFinite Grade.isFinite_highest)).mpr hcap

theorem finalGrade?_of_highest_le (hraw : raw.isFinite = true) (h : 10 ≤ raw) :
    finalGrade? raw = some 10 := by
  have hplace := (Grade.highest_le_iff hraw).mp h
  rw [finalGrade?_of_nonneg hraw (by omega), Grade.hundredths_of_highest_le hplace,
    Grade.ofHundredths_highest]

end FinalGrade

namespace ParsedFormula

variable {parsed : ParsedFormula} {grades : List ComponentGrade} {grade : Binary64}

theorem evaluate_eq_graded_iff : parsed.evaluate grades = .graded grade ↔
    ∃ bindings raw, bindGrades grades [] = .ok bindings ∧ parsed.tree.value bindings = .ok raw ∧
      finalGrade? raw = some grade := by
  unfold evaluate
  cases bindGrades grades [] with
  | error reason => simp
  | ok bindings =>
    cases hvalue : parsed.tree.value bindings with
    | error error => simp [hvalue]
    | ok raw => cases hgrade : finalGrade? raw <;> simp [hvalue, hgrade]

end ParsedFormula

theorem exists_of_evaluate {formula : String} {grades : List ComponentGrade} {grade : Binary64}
    (h : evaluate formula grades = .graded grade) :
    ∃ parsed, ParsedFormula.ofText formula {} = .ok parsed ∧
      parsed.evaluate grades = .graded grade := by
  have hgrade : (evaluate formula grades).grade? = some grade := by
    rw [h]
    rfl
  cases hread : ParsedFormula.ofText formula {} with
  | error error =>
    rw [evaluate_of_unreadable hread] at hgrade
    cases hgrade
  | ok parsed =>
    cases hblank : Text.isBlankText formula with
    | true =>
      rw [evaluate_of_blank hblank] at hgrade
      cases hgrade
    | false =>
      rw [evaluate_of_readable hblank hread] at h
      exact ⟨parsed, rfl, h⟩

/-- The grade is the outcome for some student, by a text or by a formula that has been read. -/
inductive IsGraded (grade : Binary64) : Prop where
  | ofText {formula : String} {grades : List ComponentGrade}
    (h : evaluate formula grades = .graded grade)
  | ofParsed {parsed : ParsedFormula} {grades : List ComponentGrade}
    (h : parsed.evaluate grades = .graded grade)

namespace IsGraded

variable {grade : Binary64}

theorem exists_raw (h : IsGraded grade) : ∃ raw, finalGrade? raw = some grade := by
  have hparsed : ∀ {parsed : ParsedFormula} {grades : List ComponentGrade},
      parsed.evaluate grades = .graded grade → ∃ raw, finalGrade? raw = some grade := by
    intro parsed grades hgraded
    obtain ⟨_, raw, _, _, hgrade⟩ := ParsedFormula.evaluate_eq_graded_iff.mp hgraded
    exact ⟨raw, hgrade⟩
  cases h with
  | ofText h =>
    obtain ⟨parsed, _, hgraded⟩ := exists_of_evaluate h
    exact hparsed hgraded
  | ofParsed h => exact hparsed h

theorem isFinalGrade (h : IsGraded grade) : IsFinalGrade grade := by
  obtain ⟨raw, hraw⟩ := h.exists_raw
  exact isFinalGrade_of_finalGrade? hraw

theorem exists_hundredths (h : IsGraded grade) :
    ∃ k : Int, k ≤ 1000 ∧ Grade.ofHundredths k = grade := by
  obtain ⟨raw, hraw⟩ := h.exists_raw
  exact ⟨_, Grade.hundredths_le raw.position, (finalGrade?_eq_some_iff.mp hraw).2⟩

end IsGraded

/--
A grade is finite, at most ten, not negative zero, and the double nearest to a whole number of
hundredths. A value of ten or more, however large while it is finite, is the grade ten.
-/
theorem graded_isFinalGrade (formula : String) (limits : Limits) (grades : List ComponentGrade) :
    (∀ grade, evaluate formula grades = .graded grade → IsFinalGrade grade) ∧
    ∀ parsed, ParsedFormula.ofText formula limits = .ok parsed →
      (∀ grade, parsed.evaluate grades = .graded grade → IsFinalGrade grade) ∧
      ∀ bindings raw, bindGrades grades [] = .ok bindings → parsed.tree.value bindings = .ok raw →
        raw.isFinite = true → 10 ≤ raw → parsed.evaluate grades = .graded 10 := by
  have hparsed : ∀ (parsed : ParsedFormula) (grade : Binary64),
      parsed.evaluate grades = .graded grade → IsFinalGrade grade := by
    intro parsed grade h
    obtain ⟨bindings, raw, _, _, hgrade⟩ := ParsedFormula.evaluate_eq_graded_iff.mp h
    exact isFinalGrade_of_finalGrade? hgrade
  refine ⟨fun grade h => ?_, fun parsed _ => ⟨hparsed parsed, ?_⟩⟩
  · obtain ⟨parsed, _, hgraded⟩ := exists_of_evaluate h
    exact hparsed parsed grade hgraded
  · intro bindings raw hbind hvalue hfinite hraw
    exact ParsedFormula.evaluate_eq_graded_iff.mpr
      ⟨bindings, raw, hbind, hvalue, finalGrade?_of_highest_le hfinite hraw⟩

/-- A grade below zero, and a value above ten. -/
theorem graded_isFinalGrade_ends :
    (evaluate "p1 - lab" [⟨"P1", some 1⟩, ⟨"Lab", some 8⟩] = .graded (-7) ∧ IsFinalGrade (-7)) ∧
    ∃ parsed raw, ParsedFormula.ofText "lab * lab" ⟨9, 3⟩ = .ok parsed ∧
      bindGrades [⟨"Lab", some 8⟩] [] = .ok [("LAB", 8)] ∧
      parsed.tree.value [("LAB", 8)] = .ok raw ∧ raw.isFinite = true ∧ 10 ≤ raw ∧
      parsed.evaluate [⟨"Lab", some 8⟩] = .graded 10 ∧ IsFinalGrade 10 := by
  have hdifference : Formula.parse "p1 - lab" {} =
      .ok (.chain (.variable "P1") (.step .minus (.variable "LAB") .done)) := by cbv
  have hsquare : Formula.parse "lab * lab" ⟨9, 3⟩ =
      .ok (.chain (.variable "LAB") (.step .times (.variable "LAB") .done)) := by cbv
  have hnegative : evaluate "p1 - lab" [⟨"P1", some 1⟩, ⟨"Lab", some 8⟩] = .graded (-7) := by
    rw [evaluate_of_readable (by decide +kernel) (ParsedFormula.ofText_of_parse hdifference)]
    decide +kernel
  have hread := ParsedFormula.ofText_of_parse hsquare
  have hbind : bindGrades [⟨"Lab", some 8⟩] [] = .ok [("LAB", 8)] := by decide +kernel
  have hvalue : (Formula.chain (.variable "LAB") (.step .times (.variable "LAB") .done)).value
      [("LAB", 8)] = .ok 64 := by decide +kernel
  have hraw : (64 : Binary64).isFinite = true ∧ (10 : Binary64) ≤ 64 := by decide +kernel
  obtain ⟨hnegativeFinal, _⟩ :=
    graded_isFinalGrade "p1 - lab" {} [⟨"P1", some 1⟩, ⟨"Lab", some 8⟩]
  obtain ⟨hfinal, hlarge⟩ := (graded_isFinalGrade "lab * lab" ⟨9, 3⟩ [⟨"Lab", some 8⟩]).2 _ hread
  have hten := hlarge _ _ hbind hvalue hraw.1 hraw.2
  exact ⟨⟨hnegative, hnegativeFinal _ hnegative⟩, _, _, hread, hbind, hvalue, hraw.1, hraw.2, hten,
    hfinal _ hten⟩

end FinalGrades
