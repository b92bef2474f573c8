import FinalGrades.Proofs.Formula.Rising
import FinalGrades.Proofs.Outcome.Hundredths

/-!
A better grade never lowers the final grade, where the formula takes nothing away and divides by
literals only: clamping, the formula, the cap and the rounding to hundredths all keep the order.
-/

namespace FinalGrades

open Binary64

section Bound

variable {grades others : List ComponentGrade}

/-- The clamped values are on the scale, in the order of the values. -/
theorem rises_clamp {x y : Binary64} (hx : x.isFinite = true) (hy : y.isFinite = true)
    (h : x ≤ y) : Rises (Grade.clamp x) (Grade.clamp y) := by
  have hplace := (le_iff (isNaN_of_isFinite hx) (isNaN_of_isFinite hy)).mp h
  intro _ _
  rw [Grade.position_clamp hx, Grade.position_clamp hy]
  omega

/-- One component twice, with finite grades, the second of them not below the first. -/
structure ComponentGrade.AtMost (lower upper : ComponentGrade) : Prop where
  sigla : lower.sigla = upper.sigla
  value : ∃ x y, lower.value = some x ∧ upper.value = some y ∧ x.isFinite = true ∧
    y.isFinite = true ∧ x ≤ y

theorem forall₂_boundGrades (h : List.Forall₂ ComponentGrade.AtMost grades others) :
    List.Forall₂ (fun a b => a.1 = b.1 ∧ Rises a.2 b.2) (boundGrades grades)
      (boundGrades others) := by
  unfold boundGrades
  rw [List.forall₂_reverse_iff]
  induction h with
  | nil => exact List.Forall₂.nil
  | @cons lower upper _ _ hhead _ ih =>
    obtain ⟨x, y, hlower, hupper, hx, hy, hle⟩ := hhead.value
    have hclamped := rises_clamp hx hy hle
    simp only [List.filterMap_cons, hlower, hupper, hhead.sigla, Option.map_some]
    refine List.Forall₂.cons ⟨rfl, ?_⟩ ih
    dsimp only
    exact hclamped

theorem rises_lookup {bindings more : Bindings}
    (h : List.Forall₂ (fun a b => a.1 = b.1 ∧ Rises a.2 b.2) bindings more) {name : String}
    {x y : Binary64} (hx : bindings.lookup name = some x) (hy : more.lookup name = some y) :
    Rises x y := by
  induction h with
  | nil => cases hx
  | @cons a b _ _ hhead _ ih =>
    obtain ⟨bound, value⟩ := a
    obtain ⟨other, greater⟩ := b
    obtain ⟨rfl, hrises⟩ : bound = other ∧ Rises value greater := hhead
    rw [List.lookup_cons] at hx hy
    cases hname : name == bound with
    | true =>
      rw [hname] at hx hy
      obtain rfl := Option.some.inj hx
      obtain rfl := Option.some.inj hy
      exact hrises
    | false =>
      rw [hname] at hx hy
      exact ih hx hy

end Bound

theorem finalGrade?_mono {raw more grade other : Binary64} (h : Rises raw more)
    (hgrade : finalGrade? raw = some grade) (hother : finalGrade? more = some other) :
    grade ≤ other := by
  have hfinite := (isFinalGrade_of_finalGrade? hgrade).finite
  have hfinite' := (isFinalGrade_of_finalGrade? hother).finite
  obtain ⟨hraw, rfl⟩ := finalGrade?_eq_some_iff.mp hgrade
  obtain ⟨hmore, rfl⟩ := finalGrade?_eq_some_iff.mp hother
  have hplace := (h hraw.1 hmore.1).2
  exact (le_iff (isNaN_of_isFinite hfinite) (isNaN_of_isFinite hfinite')).mpr
    (Grade.position_ofHundredths_mono (Grade.hundredths_mono hplace))

namespace ParsedFormula

variable {parsed : ParsedFormula} {grades others : List ComponentGrade} {grade other : Binary64}

theorem value_of_graded (h : parsed.evaluate grades = .graded grade) :
    ∃ raw, parsed.tree.value (boundGrades grades) = .ok raw ∧ finalGrade? raw = some grade := by
  obtain ⟨bindings, raw, hbind, hvalue, hgrade⟩ := evaluate_eq_graded_iff.mp h
  cases hfound : grades.find? ComponentGrade.isMissing with
  | some missing =>
    rw [bindGrades_of_missing hfound] at hbind
    cases hbind
  | none =>
    rw [bindGrades_eq_bound hfound] at hbind
    obtain rfl := Except.ok.inj hbind
    exact ⟨raw, hvalue, hgrade⟩

/--
With no minus in the text and only literals as divisors, raising the grades of some components
never lowers the final grade.
-/
theorem evaluate_mono {formula : String} {limits : Limits}
    (hread : ofText formula limits = .ok parsed) (hminus : '-' ∉ formula.toList)
    (hdivisors : parsed.tree.DividesByNumbers)
    (hgrades : List.Forall₂ ComponentGrade.AtMost grades others)
    (hgrade : parsed.evaluate grades = .graded grade)
    (hother : parsed.evaluate others = .graded other) : grade ≤ other := by
  obtain ⟨tree, hparse, rfl⟩ := ofText_eq_ok.mp hread
  obtain ⟨raw, hraw, hfinal⟩ := value_of_graded hgrade
  obtain ⟨more, hmore, hfinal'⟩ := value_of_graded hother
  have hrising := Formula.rising_of_parse hparse hminus hdivisors
  have hbound := forall₂_boundGrades hgrades
  exact finalGrade?_mono
    (tree.rises_value (fun _ _ _ => rises_lookup hbound) hrising hraw hmore) hfinal hfinal'

/-- Of two components with one name the last counts, and twelve counts as ten. -/
theorem evaluate_mono_half :
    '-' ∉ "(P1)/(2)".toList ∧
      List.Forall₂ ComponentGrade.AtMost [⟨"P1", some (-4)⟩, ⟨"p1", some 3⟩]
        [⟨"P1", some 2⟩, ⟨"p1", some 12⟩] ∧
      ∃ parsed lower, ofText "(P1)/(2)" {} = .ok parsed ∧ parsed.tree.DividesByNumbers ∧
        parsed.evaluate [⟨"P1", some (-4)⟩, ⟨"p1", some 3⟩] = .graded lower ∧
        parsed.evaluate [⟨"P1", some 2⟩, ⟨"p1", some 12⟩] = .graded 5 ∧ lower ≤ 5 := by
  let tree : Formula := .chain (.variable "P1") (.step .over (.number 2) .done)
  have hplain : (2 : Binary64).plain = "2" := by decide +kernel
  have hwritten : tree.written Binary64.plain = "(P1)/(2)" := by
    rw [Formula.written, Formula.written, Steps.written, Steps.written, Formula.written, hplain]
    rfl
  have hname : IsUpperName "P1".toList :=
    ⟨List.forall_mem_cons.mpr ⟨rfl, List.forall_mem_singleton.mpr rfl⟩, 'P', rfl, rfl⟩
  have hwellFormed : tree.WellFormed :=
    ⟨hname, by simp, .multiplicative, rfl, isUnsigned_ofNat 2, trivial⟩
  have hnumbers : ∀ value ∈ tree.numbers, value.HasLiteral value.plain :=
    List.forall_mem_singleton.mpr (hasLiteral_plain (isUnsigned_ofNat 2) (by decide +kernel))
  have hparse : Formula.parse (tree.written Binary64.plain) {} = .ok tree :=
    Formula.parse_written hwellFormed hnumbers (by rw [hwritten]; decide) (by decide)
  rw [hwritten] at hparse
  have hgrades : List.Forall₂ ComponentGrade.AtMost [⟨"P1", some (-4)⟩, ⟨"p1", some 3⟩]
      [⟨"P1", some 2⟩, ⟨"p1", some 12⟩] :=
    .cons ⟨rfl, -4, 2, rfl, rfl, by decide +kernel⟩
      (.cons ⟨rfl, 3, 12, rfl, rfl, by decide +kernel⟩ .nil)
  have hdivisors : tree.DividesByNumbers := ⟨trivial, fun _ => ⟨_, rfl⟩, trivial, trivial⟩
  have hread := ofText_of_parse hparse
  have hlower : (ParsedFormula.mk "(P1)/(2)" tree).evaluate
      [⟨"P1", some (-4)⟩, ⟨"p1", some 3⟩] = .graded (Binary64.ofDecimal false 15 (-1)) := by
    decide +kernel
  have hupper : (ParsedFormula.mk "(P1)/(2)" tree).evaluate
      [⟨"P1", some 2⟩, ⟨"p1", some 12⟩] = .graded 5 := by
    decide +kernel
  exact ⟨by decide, hgrades, _, _, hread, hdivisors, hlower, hupper,
    evaluate_mono hread (by decide) hdivisors hgrades hlower hupper⟩

end ParsedFormula

end FinalGrades
