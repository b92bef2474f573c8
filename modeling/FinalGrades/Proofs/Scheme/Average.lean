import FinalGrades.Proofs.Formula.Nested
import FinalGrades.Proofs.Outcome.Hundredths
import FinalGrades.Proofs.Outcome.Named
import FinalGrades.Proofs.Scheme

/-!
The grade by a simple average. Sums of grades stay between whole multiples of the bounds, however
they are rounded on the way, and the quotient by their number comes back between the bounds: so a
student with all grades always has a grade, and grades at an end of the scale average to that end.
-/

namespace FinalGrades

open Attempt Binary64 Lexeme

namespace Binary64

/-- Finite, and between two whole numbers. -/
structure Between (x : Binary64) (low high : Nat) : Prop where
  finite : x.isFinite = true
  low : low * unit ≤ x.position
  high : x.position ≤ high * unit

namespace Between

variable {x y : Binary64} {low high low' high' n : Nat}

theorem low_le_high (h : x.Between low high) : low ≤ high := by
  have hle : (low : Int) * unit ≤ high * unit := Int.le_trans h.low h.high
  exact Int.ofNat_le.mp (Int.le_of_mul_le_mul_right hle (Int.natCast_pos.mpr unit_pos))

theorem representable_natCast_mul (h : n < 2 ^ 53) :
    Representable ((n : Int) * unit).natAbs := by
  rw [← Nat.cast_mul, Int.natAbs_natCast]
  exact representable_mul_unit h

/-- A result between whole numbers is finite. -/
theorem of_position (hx : x.isNaN = false) (hlow : low * unit ≤ x.position)
    (hhigh : x.position ≤ high * unit) (h : high < 2 ^ 53) : x.Between low high := by
  have hlast := (representable_mul_unit h).2
  have hproduct : ((high * unit : Nat) : Int) = high * unit := Nat.cast_mul high unit
  have hnonneg : (0 : Int) ≤ low * unit :=
    Int.mul_nonneg (Int.natCast_nonneg _) (Int.natCast_nonneg _)
  exact ⟨isFinite_of_lt hx (by omega), hlow, hhigh⟩

theorem add (hx : x.Between low high) (hy : y.Between low' high') (h : high + high' < 2 ^ 53) :
    (x + y).Between (low + low') (high + high') := by
  have hle := hx.low_le_high
  have hle' := hy.low_le_high
  have hlow := Int.add_le_add hx.low hy.low
  have hhigh := Int.add_le_add hx.high hy.high
  rw [← Int.add_mul, ← Nat.cast_add] at hlow hhigh
  refine of_position (isNaN_add hx.finite hy.finite) ?_ ?_ h
  · rw [position_add hx.finite hy.finite]
    refine le_rounded Nat.one_pos (representable_natCast_mul (by omega)) ?_
    rwa [Int.natCast_one, Int.mul_one]
  · rw [position_add hx.finite hy.finite]
    refine rounded_le Nat.one_pos (representable_natCast_mul h) ?_
    rwa [Int.natCast_one, Int.mul_one]

/-- The quotient by a number of terms is between the bounds of the terms. -/
theorem div_ofNat (hx : x.Between (low * n) (high * n)) (hpos : 0 < n) (hn : n < 2 ^ 53)
    (h : high < 2 ^ 53) : (x / ofNat n).Between low high := by
  have hle : low ≤ high := Nat.le_of_mul_le_mul_right hx.low_le_high hpos
  have hlow := hx.low
  have hhigh := hx.high
  rw [Int.natCast_mul, Int.mul_right_comm] at hlow hhigh
  obtain ⟨hnumber, hposition⟩ := position_div_ofNat hx.finite hpos hn
  refine of_position hnumber ?_ ?_ h
  · rw [hposition]
    exact le_rounded hpos (representable_natCast_mul (by omega)) hlow
  · rw [hposition]
    exact rounded_le hpos (representable_natCast_mul h) hhigh

end Between

end Binary64

section Mean

variable {bindings : Bindings} {low high : Nat}

/-- The name is bound to a number between the bounds. -/
def Bindings.Bounds (bindings : Bindings) (low high : Nat) (name : String) : Prop :=
  ∃ value, bindings.lookup name = some value ∧ value.Between low high

/-- The running sum after `count` terms lies between so many times the bounds. -/
theorem Steps.between_all {names : List String} (h : ∀ name ∈ names, bindings.Bounds low high name)
    {total : Binary64} {count : Nat} (htotal : total.Between (low * count) (high * count))
    (hcount : high * (count + names.length) < 2 ^ 53) :
    ∃ sum, (Steps.all .plus (names.map .variable)).value bindings total = .ok sum ∧
      sum.Between (low * (count + names.length)) (high * (count + names.length)) := by
  induction names generalizing total count with
  | nil => exact ⟨total, by rw [List.map_nil, Steps.all, Steps.value], htotal⟩
  | cons name rest ih =>
    obtain ⟨⟨value, hlookup, hvalue⟩, hrest⟩ := List.forall_mem_cons.mp h
    have hlength : count + (name :: rest).length = count + 1 + rest.length := by
      rw [List.length_cons]
      omega
    rw [hlength] at hcount ⊢
    have hnext : (total + value).Between (low * (count + 1)) (high * (count + 1)) := by
      rw [Nat.mul_succ, Nat.mul_succ]
      refine htotal.add hvalue (Nat.lt_of_le_of_lt ?_ hcount)
      rw [← Nat.mul_succ]
      exact Nat.mul_le_mul_left high (Nat.le_add_right _ _)
    obtain ⟨sum, hsum, hbetween⟩ := ih hrest hnext hcount
    refine ⟨sum, ?_, hbetween⟩
    rw [List.map_cons, Steps.all, Steps.value, Formula.value, hlookup]
    exact hsum

theorem Scheme.between_simpleTree {siglas : List String} (hne : siglas ≠ [])
    (h : ∀ sigla ∈ siglas, bindings.Bounds low high (Text.upper sigla))
    (hcount : high * siglas.length < 2 ^ 53) (hlength : siglas.length < 2 ^ 53)
    (hhigh : high < 2 ^ 53) :
    ∃ mean, (simpleTree siglas).value bindings = .ok mean ∧ mean.Between low high := by
  obtain ⟨first, rest, rfl⟩ := List.exists_cons_of_ne_nil hne
  obtain ⟨⟨value, hlookup, hvalue⟩, hrest⟩ := List.forall_mem_cons.mp h
  have hnames : ∀ name ∈ rest.map Text.upper, bindings.Bounds low high name :=
    List.forall_mem_map.mpr hrest
  have hterms : (rest.map Text.upper).length = rest.length := List.length_map _
  have hone : value.Between (low * 1) (high * 1) := by rwa [Nat.mul_one, Nat.mul_one]
  have htotal : 1 + rest.length = (first :: rest).length := Nat.add_comm 1 _
  obtain ⟨sum, hsum, hbetween⟩ := Steps.between_all hnames hone (by rwa [hterms, htotal])
  rw [hterms, htotal] at hbetween
  rw [List.map_map] at hsum
  have hvalues : (Formula.sum ((first :: rest).map fun sigla => .variable (Text.upper sigla))).value
      bindings = .ok sum := by
    rw [List.map_cons, Formula.sum, Phrase.value_chained, Formula.value, hlookup]
    exact hsum
  refine ⟨sum / ofNat (first :: rest).length, ?_,
    hbetween.div_ofNat (Nat.succ_pos _) hlength hhigh⟩
  rw [simpleTree, Formula.value, hvalues, ok_bind, Steps.value, Formula.value, ok_bind, Steps.value]
  rfl

end Mean

section Grades

variable {grades : List ComponentGrade} {low high : Nat} {value raw : Binary64}

theorem Grade.between_clamp (h : value.isFinite = true) : (Grade.clamp value).Between 0 10 := by
  refine ⟨Grade.isFinite_clamp h, ?_, ?_⟩ <;> rw [Grade.position_clamp h] <;> omega

theorem Grade.between_clamp_of_ge (h : value.isFinite = true) (hvalue : 10 ≤ value) :
    (Grade.clamp value).Between 10 10 := by
  have hplace := (highest_le_iff h).mp hvalue
  refine ⟨Grade.isFinite_clamp h, ?_, ?_⟩ <;> rw [Grade.position_clamp h] <;> omega

theorem Grade.between_clamp_of_le (h : value.isFinite = true) (hvalue : value ≤ 0) :
    (Grade.clamp value).Between 0 0 := by
  have hplace := (le_lowest_iff h).mp hvalue
  refine ⟨Grade.isFinite_clamp h, ?_, ?_⟩ <;> rw [Grade.position_clamp h] <;> omega

/-- Where all grades are there, the bound values are among the clamped ones. -/
theorem bounds_boundGrades (hgrades : ∀ grade ∈ grades, grade.isMissing = false)
    (h : ∀ grade ∈ grades, ∀ value ∈ grade.value, value.isFinite = true →
      (Grade.clamp value).Between low high)
    {name : String} (hname : ∃ grade ∈ grades, Text.upper grade.sigla = name) :
    (boundGrades grades).Bounds low high name := by
  obtain ⟨named, hnamed, hupper⟩ := hname
  rw [Bindings.Bounds, lookup_boundGrades hgrades, gradeFor?]
  have hsome : (grades.reverse.find? (·.isNamed name)).isSome = true :=
    List.find?_isSome.mpr ⟨named, List.mem_reverse.mpr hnamed, beq_iff_eq.mpr hupper⟩
  obtain ⟨grade, hgrade⟩ := Option.isSome_iff_exists.mp hsome
  have hmem : grade ∈ grades := List.mem_reverse.mp (List.mem_of_find?_eq_some hgrade)
  rw [hgrade, Option.bind_some]
  obtain ⟨sigla, _ | value⟩ := grade
  · cases hgrades _ hmem
  · have hfinite : value.isFinite = true := by
      simpa [ComponentGrade.isMissing] using hgrades _ hmem
    exact ⟨_, rfl, h _ hmem value rfl hfinite⟩

/-- The final grade of a value on the scale, with the ends of the scale for its ends. -/
theorem finalGrade?_of_between (h : raw.Between low high) :
    ∃ grade, finalGrade? raw = some grade ∧ 0 ≤ grade ∧ grade ≤ 10 ∧
      (low = 10 → grade = 10) ∧ (high = 0 → grade = 0) := by
  have hlow := h.low
  have hnonneg : 0 ≤ raw.position :=
    Int.le_trans (Int.mul_nonneg (Int.natCast_nonneg _) (Int.natCast_nonneg _)) hlow
  have hgrade := finalGrade?_of_nonneg h.finite hnonneg
  have hfinal := isFinalGrade_of_finalGrade? hgrade
  refine ⟨_, hgrade, ?_, hfinal.le_highest, ?_, ?_⟩
  · have hhundredths := Grade.hundredths_mono hnonneg
    rw [Grade.hundredths_lowest] at hhundredths
    have hplace := Grade.position_ofHundredths_mono hhundredths
    rw [Grade.ofHundredths_lowest] at hplace
    exact (le_iff (isNaN_of_isFinite Grade.scale_ends.1.1)
      (isNaN_of_isFinite hfinal.finite)).mpr hplace
  · rintro rfl
    rw [Grade.hundredths_of_highest_le hlow, Grade.ofHundredths_highest]
  · rintro rfl
    have hzero : raw.position = 0 := by
      have hhigh := h.high
      rw [Nat.cast_zero, Int.zero_mul] at hhigh
      exact Int.le_antisymm hhigh hnonneg
    rw [hzero, Grade.hundredths_lowest, Grade.ofHundredths_lowest]

end Grades

namespace Scheme

variable {siglas : List String} {grades : List ComponentGrade} {low high : Nat}

theorem length_le_intercalate {α : Type} (separator : List α) {parts : List (List α)}
    (h : ∀ part ∈ parts, part ≠ []) : parts.length ≤ (separator.intercalate parts).length := by
  induction parts with
  | nil => exact Nat.zero_le _
  | cons part rest ih =>
    obtain ⟨hpart, hrest⟩ := List.forall_mem_cons.mp h
    have hpos := List.length_pos_iff.mpr hpart
    cases rest with
    | nil => simpa using Nat.succ_le_of_lt hpos
    | cons next more =>
      have htail := ih hrest
      rw [List.intercalate_cons_cons, List.length_append, List.length_append, List.length_cons]
      omega

/-- Every sigla takes room in the text. -/
theorem length_le_simpleFormula (hnames : ∀ sigla ∈ siglas, IsName sigla.toList) :
    siglas.length ≤ (simpleFormula siglas).length := by
  have hparts : ∀ part ∈ siglas.map String.toList, part ≠ [] := by
    rw [List.forall_mem_map]
    intro sigla hsigla hempty
    obtain ⟨c, hc, _⟩ := (hnames sigla hsigla).start
    rw [hempty] at hc
    cases hc
  have hsum := length_le_intercalate [' ', '+', ' '] hparts
  rw [← String.length_toList, toList_simpleFormula, List.length_cons, List.length_append]
  rw [List.length_map] at hsum
  omega

/-- The grade where every clamped grade lies between the bounds. -/
theorem evaluate_simple_of_bounds (hne : siglas ≠ [])
    (hnames : ∀ sigla ∈ siglas, IsName sigla.toList)
    (hlength : (simpleFormula siglas).length ≤ 4096)
    (hgrades : ∀ grade ∈ grades, grade.isMissing = false)
    (hbound : ∀ sigla ∈ siglas, ∃ grade ∈ grades, Text.upper grade.sigla = Text.upper sigla)
    (h : ∀ grade ∈ grades, ∀ value ∈ grade.value, value.isFinite = true →
      (Grade.clamp value).Between low high) (hhigh : high ≤ 10) :
    ∃ grade, evaluate (simpleFormula siglas) grades = .graded grade ∧ 0 ≤ grade ∧ grade ≤ 10 ∧
      (low = 10 → grade = 10) ∧ (high = 0 → grade = 0) := by
  have hcount := Nat.le_trans (length_le_simpleFormula hnames) hlength
  have hproduct : high * siglas.length ≤ 10 * 4096 := Nat.mul_le_mul hhigh hcount
  have hparse : Formula.parse (simpleFormula siglas) {} = .ok (simpleTree siglas) :=
    parse_simpleFormula hne hnames hlength (by decide)
  obtain ⟨mean, hmean, hbetween⟩ := between_simpleTree hne
    (fun sigla hsigla => bounds_boundGrades hgrades h (hbound sigla hsigla))
    (by omega) (by omega) (by omega)
  obtain ⟨grade, hgrade, hends⟩ := finalGrade?_of_between hbetween
  refine ⟨grade, ?_, hends⟩
  rw [evaluate_of_readable (Formula.isBlankText_of_parse hparse)
    (ParsedFormula.ofText_of_parse hparse)]
  exact ParsedFormula.evaluate_eq_graded_iff.mpr
    ⟨_, mean, bindGrades_eq_bound (find?_isMissing_of_present hgrades), hmean, hgrade⟩

/--
The formula of a simple average always gives a student with all grades a grade from zero to ten: ten
if no grade is below ten, and zero if none is above zero.
-/
theorem evaluate_simple_average (siglas : List String) (hne : siglas ≠ [])
    (hnames : ∀ sigla ∈ siglas, IsName sigla.toList) (weights : Option (List Binary64)) :
    ∃ text, formula siglas ⟨.simple, weights⟩ = .ok text ∧
      (text.length ≤ 4096 → ∀ grades : List ComponentGrade,
        (∀ grade ∈ grades, grade.isMissing = false) →
        (∀ sigla ∈ siglas, ∃ grade ∈ grades, Text.upper grade.sigla = Text.upper sigla) →
        ∃ grade, evaluate text grades = .graded grade ∧ 0 ≤ grade ∧ grade ≤ 10 ∧
          ((∀ component ∈ grades, ∀ value ∈ component.value, 10 ≤ value) → grade = 10) ∧
          ((∀ component ∈ grades, ∀ value ∈ component.value, value ≤ 0) → grade = 0)) := by
  have hempty : siglas.isEmpty = false := by simpa using hne
  refine ⟨simpleFormula siglas, ?_, fun hlength grades hgrades hbound => ?_⟩
  · rw [formula, hempty, if_neg Bool.false_ne_true]
  obtain ⟨grade, hgrade, hnonneg, hle, _⟩ :=
    evaluate_simple_of_bounds hne hnames hlength hgrades hbound
      (fun _ _ _ _ hfinite => Grade.between_clamp hfinite) (Nat.le_refl _)
  refine ⟨grade, hgrade, hnonneg, hle, fun hhigh => ?_, fun hlow => ?_⟩
  · obtain ⟨top, htop, _, _, hten, _⟩ :=
      evaluate_simple_of_bounds hne hnames hlength hgrades hbound
        (fun component hcomponent value hvalue hfinite =>
          Grade.between_clamp_of_ge hfinite (hhigh component hcomponent value hvalue))
        (Nat.le_refl _)
    rw [hgrade] at htop
    obtain rfl := Outcome.graded.inj htop
    exact hten rfl
  · obtain ⟨bottom, hbottom, _, _, _, hzero⟩ :=
      evaluate_simple_of_bounds hne hnames hlength hgrades hbound
        (fun component hcomponent value hvalue hfinite =>
          Grade.between_clamp_of_le hfinite (hlow component hcomponent value hvalue))
        (Nat.zero_le _)
    rw [hgrade] at hbottom
    obtain rfl := Outcome.graded.inj hbottom
    exact hzero rfl

/-- Grades above ten, one of them for a component that the formula does not name. -/
theorem evaluate_simple_average_of_two :
    ∃ text, formula ["p1", "Lab"] ⟨.simple, none⟩ = .ok text ∧ text.length ≤ 4096 ∧
      evaluate text [⟨"LAB", some 11⟩, ⟨"P1", some 10⟩, ⟨"X", some 12⟩] = .graded 10 := by
  have hnames : ∀ sigla ∈ ["p1", "Lab"], IsName sigla.toList := by
    simp only [List.forall_mem_cons]
    exact ⟨⟨List.all_eq_true.mp (by decide), 'p', rfl, rfl⟩,
      ⟨List.all_eq_true.mp (by decide), 'L', rfl, rfl⟩, fun _ h => nomatch h⟩
  have htext : formula ["p1", "Lab"] ⟨.simple, none⟩ = .ok "(p1 + Lab) / 2" :=
    eq_ok_of_toOption (by decide +kernel)
  obtain ⟨text, hformula, haverage⟩ := evaluate_simple_average ["p1", "Lab"] nofun hnames none
  obtain rfl := Except.ok.inj (htext.symm.trans hformula)
  obtain ⟨grade, hgrade, _, _, hten, _⟩ := haverage (by decide)
    [⟨"LAB", some 11⟩, ⟨"P1", some 10⟩, ⟨"X", some 12⟩] (by decide +kernel) (by decide +kernel)
  rw [hten (by decide +kernel)] at hgrade
  exact ⟨_, htext, by decide, hgrade⟩

end Scheme

end FinalGrades
