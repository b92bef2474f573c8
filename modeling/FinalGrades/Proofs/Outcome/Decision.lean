import FinalGrades.Proofs.Formula.Errors
import FinalGrades.Proofs.Grade
import FinalGrades.Proofs.Outcome
import Mathlib

/-!
The outcome for one student as a decision table: no formula, a missing grade, a text that cannot be
read, a name without a grade, a value that is not finite, and else a grade. Each reason is given
exactly if its condition holds and none of the conditions before it does. What is wrong with the
text alone is the same for every student.
-/

namespace FinalGrades

open Attempt

theorem find?_eraseDups {α : Type} [BEq α] [LawfulBEq α] (p : α → Bool) (values : List α) :
    values.eraseDups.find? p = values.find? p := by
  match values with
  | [] => rfl
  | value :: rest =>
    rw [List.eraseDups_cons, List.find?_cons, List.find?_cons,
      find?_eraseDups p (rest.filter fun other => !other == value), List.find?_filter]
    split
    next => rfl
    next hfalse =>
      -- The values that were left out are all equal to one that is not looked for.
      congr 1
      funext other
      by_cases hother : other = value
      · simp [hother, hfalse]
      · simp [hother]
termination_by values.length
decreasing_by exact Nat.lt_succ_of_le (List.length_filter_le _ _)

section Grades

variable {grades : List ComponentGrade}

/-- The clamped grades under their siglas in upper case, the last one first. -/
def boundGrades (grades : List ComponentGrade) : Bindings :=
  (grades.filterMap fun grade =>
    grade.value.map fun value => (Text.upper grade.sigla, Grade.clamp value)).reverse

/-- No sigla is the name in upper case. -/
def isUnbound (grades : List ComponentGrade) (name : String) : Bool :=
  grades.all fun grade => Text.upper grade.sigla != name

theorem boundGrades_cons (sigla : String) (value : Binary64) (rest : List ComponentGrade) :
    boundGrades (⟨sigla, some value⟩ :: rest) =
      boundGrades rest ++ [(Text.upper sigla, Grade.clamp value)] :=
  List.reverse_cons

theorem bindGrades_eq_append (bindings : Bindings)
    (h : grades.find? ComponentGrade.isMissing = none) :
    bindGrades grades bindings = .ok (boundGrades grades ++ bindings) := by
  fun_induction bindGrades grades bindings with
  | case1 bindings => rfl
  | case2 sigla value rest bindings hfinite ih =>
    rw [List.find?_cons_of_neg (by simp [ComponentGrade.isMissing, hfinite])] at h
    rw [ih h, boundGrades_cons, List.append_assoc]
    rfl
  | case3 sigla value rest bindings hfinite =>
    rw [List.find?_cons_of_pos (by simp [ComponentGrade.isMissing, hfinite])] at h
    cases h
  | case4 sigla rest bindings =>
    rw [List.find?_cons_of_pos rfl] at h
    cases h

theorem bindGrades_eq_bound (h : grades.find? ComponentGrade.isMissing = none) :
    bindGrades grades [] = .ok (boundGrades grades) := by
  rw [bindGrades_eq_append [] h, List.append_nil]

theorem lacks_boundGrades (h : grades.find? ComponentGrade.isMissing = none) :
    (boundGrades grades).lacks = isUnbound grades := by
  funext name
  obtain ⟨bound, hbound, hlacks⟩ := bindGrades_of_present [] h
  obtain rfl := Except.ok.inj ((bindGrades_eq_bound h).symm.trans hbound)
  rw [Bool.eq_iff_iff, hlacks, isUnbound, List.all_eq_true]
  simp [Bindings.lacks]

end Grades

/-- The value of a formula and the hundredfold that is rounded are both finite. -/
def CanBeRounded (raw : Binary64) : Prop :=
  raw.isFinite = true ∧ (Binary64.min raw Grade.highest * 100).isFinite = true

instance (raw : Binary64) : Decidable (CanBeRounded raw) := inferInstanceAs (Decidable (_ ∧ _))

theorem finalGrade?_eq (raw : Binary64) : finalGrade? raw =
    if CanBeRounded raw then some (Grade.roundHalfUp (Binary64.min raw Grade.highest) 2)
    else none := by
  unfold finalGrade?
  by_cases hraw : raw.isFinite = true
  · have hle := Binary64.min_le hraw (show Grade.highest.isFinite = true from by decide +kernel)
    have hround : CanBeRounded raw ↔ (Binary64.min raw Grade.highest * 100).isFinite = true :=
      and_iff_right hraw
    simp only [hraw, if_true, Grade.isFinite_roundHalfUp hle, hround]
  · rw [if_neg hraw, if_neg fun h : CanBeRounded raw => hraw h.1]

namespace ParsedFormula

variable {parsed : ParsedFormula} {tree : Formula} {grades : List ComponentGrade}

/-- With all grades there, the formula's value decides. -/
theorem evaluate_of_present (h : grades.find? ComponentGrade.isMissing = none) :
    parsed.evaluate grades =
      match parsed.tree.value (boundGrades grades) with
      | .error error => .pending (.failed error)
      | .ok raw =>
        if CanBeRounded raw then
          .graded (Grade.roundHalfUp (Binary64.min raw Grade.highest) 2)
        else .pending (.failed .nonFinite) := by
  unfold evaluate
  rw [bindGrades_eq_bound h]
  dsimp only
  cases parsed.tree.value (boundGrades grades) with
  | error error => rfl
  | ok raw =>
    dsimp only
    rw [finalGrade?_eq]
    by_cases hraw : CanBeRounded raw
    · rw [if_pos hraw, if_pos hraw]
    · rw [if_neg hraw, if_neg hraw]

theorem value_of_unbound (h : grades.find? ComponentGrade.isMissing = none) {name : String}
    (hname : tree.names.find? (isUnbound grades) = some name) :
    tree.value (boundGrades grades) = .error (.unboundVariable name) := by
  have hsettles := tree.settles (boundGrades grades)
  rw [Formula.names, find?_eraseDups, ← lacks_boundGrades h] at hname
  rwa [Settles, hname] at hsettles

theorem value_of_bound (h : grades.find? ComponentGrade.isMissing = none)
    (hnames : tree.names.find? (isUnbound grades) = none) :
    ∃ raw, tree.value (boundGrades grades) = .ok raw := by
  have hsettles := tree.settles (boundGrades grades)
  rw [Formula.names, find?_eraseDups, ← lacks_boundGrades h] at hnames
  rwa [Settles, hnames] at hsettles

/-- A formula that has been read fails for no reason of its text. -/
theorem isSyntax_of_evaluate {error : FormulaError}
    (h : parsed.evaluate grades = .pending (.failed error)) : error.isSyntax = false := by
  cases hfound : grades.find? ComponentGrade.isMissing with
  | some grade =>
    rw [evaluate_of_missing hfound] at h
    cases h
  | none =>
    rw [evaluate_of_present hfound] at h
    split at h
    next cause hcause =>
      cases h
      exact Formula.value_failsAs _ _ _ hcause
    next raw hraw =>
      split at h
      · cases h
      · cases h
        rfl

end ParsedFormula

/-- The conditions for each outcome; those for an outcome leave out the outcomes before it. -/
structure Decided (formula : String) (grades : List ComponentGrade) (outcome : Outcome) :
    Prop where
  noFormula : outcome = .pending .noFormula ↔ Text.isBlankText formula = true
  missing : Text.isBlankText formula = false → ∀ sigla,
    (outcome = .pending (.missingComponent sigla) ↔
      (grades.find? ComponentGrade.isMissing).map (·.sigla) = some sigla)
  unreadable : Text.isBlankText formula = false →
    grades.find? ComponentGrade.isMissing = none → ∀ error,
    (outcome = .pending (.failed error) ∧ error.isSyntax = true ↔
      Formula.parse formula {} = .error error)
  unbound : grades.find? ComponentGrade.isMissing = none →
    ∀ tree, Formula.parse formula {} = .ok tree → ∀ name,
    (outcome = .pending (.failed (.unboundVariable name)) ↔
      tree.names.find? (isUnbound grades) = some name)
  settled : grades.find? ComponentGrade.isMissing = none →
    ∀ tree, Formula.parse formula {} = .ok tree → tree.names.find? (isUnbound grades) = none →
    ∃ raw, tree.value (boundGrades grades) = .ok raw ∧
      (outcome = .pending (.failed .nonFinite) ↔ ¬CanBeRounded raw) ∧
      (outcome = .graded (Grade.roundHalfUp (Binary64.min raw Grade.highest) 2) ↔
        CanBeRounded raw)

section Evaluate

variable {formula : String} {grades : List ComponentGrade}

theorem evaluate_of_missing {grade : ComponentGrade}
    (hblank : Text.isBlankText formula = false)
    (h : grades.find? ComponentGrade.isMissing = some grade) :
    evaluate formula grades = .pending (.missingComponent grade.sigla) := by
  unfold evaluate
  rw [hblank, bindGrades_of_missing h]
  rfl

theorem evaluate_of_parse_error {error : FormulaError}
    (hblank : Text.isBlankText formula = false)
    (h : grades.find? ComponentGrade.isMissing = none)
    (hparse : Formula.parse formula {} = .error error) :
    evaluate formula grades = .pending (.failed error) := by
  unfold evaluate ParsedFormula.ofText
  rw [hblank, bindGrades_eq_bound h, hparse]
  rfl

theorem evaluate_of_parse {tree : Formula} (hparse : Formula.parse formula {} = .ok tree) :
    evaluate formula grades = ParsedFormula.evaluate ⟨formula, tree⟩ grades :=
  evaluate_of_readable (Formula.isBlankText_of_parse hparse) (ParsedFormula.ofText_of_parse hparse)

theorem decided_of_blank (hblank : Text.isBlankText formula = true) :
    Decided formula grades (evaluate formula grades) := by
  have hparse : ∀ tree, Formula.parse formula {} ≠ .ok tree := by
    intro tree htree
    rw [Formula.isBlankText_of_parse htree] at hblank
    cases hblank
  rw [evaluate_of_blank hblank]
  exact
    { noFormula := iff_of_true rfl hblank
      missing := fun h => absurd (hblank.symm.trans h) (by decide)
      unreadable := fun h => absurd (hblank.symm.trans h) (by decide)
      unbound := fun _ tree htree => absurd htree (hparse tree)
      settled := fun _ tree htree => absurd htree (hparse tree) }

theorem decided_of_missing {grade : ComponentGrade} (hblank : Text.isBlankText formula = false)
    (h : grades.find? ComponentGrade.isMissing = some grade) :
    Decided formula grades (evaluate formula grades) := by
  rw [evaluate_of_missing hblank h]
  exact
    { noFormula := by simp [hblank]
      missing := fun _ sigla => by simp [h]
      unreadable := fun _ hnone => absurd (h.symm.trans hnone) (by simp)
      unbound := fun hnone => absurd (h.symm.trans hnone) (by simp)
      settled := fun hnone => absurd (h.symm.trans hnone) (by simp) }

theorem decided_of_parse_error {error : FormulaError} (hblank : Text.isBlankText formula = false)
    (h : grades.find? ComponentGrade.isMissing = none)
    (hparse : Formula.parse formula {} = .error error) :
    Decided formula grades (evaluate formula grades) := by
  have hkind : error.isSyntax = true := Formula.parse_failsAs formula {} error hparse
  rw [evaluate_of_parse_error hblank h hparse]
  refine
    { noFormula := by simp [hblank]
      missing := fun _ sigla => by simp [h]
      unreadable := fun _ _ other => ?_
      unbound := fun _ tree htree => absurd (hparse.symm.trans htree) (by simp)
      settled := fun _ tree htree => absurd (hparse.symm.trans htree) (by simp) }
  rw [hparse]
  constructor
  · rintro ⟨heq, _⟩
    cases heq
    rfl
  · intro heq
    cases heq
    exact ⟨rfl, hkind⟩

theorem decided_of_parse {tree : Formula} (h : grades.find? ComponentGrade.isMissing = none)
    (hparse : Formula.parse formula {} = .ok tree) :
    Decided formula grades (evaluate formula grades) := by
  have hblank := Formula.isBlankText_of_parse hparse
  have htext : ∀ error, ¬((evaluate formula grades = .pending (.failed error)) ∧
      error.isSyntax = true) := by
    rintro error ⟨heq, hkind⟩
    rw [evaluate_of_parse hparse] at heq
    rw [ParsedFormula.isSyntax_of_evaluate heq] at hkind
    cases hkind
  have hevaluate : evaluate formula grades = _ :=
    (evaluate_of_parse hparse).trans (ParsedFormula.evaluate_of_present h)
  have hunreadable : ∀ error, (evaluate formula grades = .pending (.failed error) ∧
      error.isSyntax = true ↔ Formula.parse formula {} = .error error) := by
    intro error
    exact iff_of_false (htext error) (by simp [hparse])
  cases hnames : tree.names.find? (isUnbound grades) with
  | some name =>
    rw [ParsedFormula.value_of_unbound h hnames] at hevaluate
    refine
      { noFormula := by simp [hevaluate, hblank]
        missing := fun _ sigla => by simp [hevaluate, h]
        unreadable := fun _ _ => hunreadable
        unbound := fun _ other hother => ?_
        settled := fun _ other hother => ?_ }
    all_goals
      obtain rfl := Except.ok.inj (hparse.symm.trans hother)
      simp [hevaluate, hnames]
  | none =>
    obtain ⟨raw, hraw⟩ := ParsedFormula.value_of_bound h hnames
    rw [hraw] at hevaluate
    refine
      { noFormula := ?_
        missing := fun _ sigla => ?_
        unreadable := fun _ _ => hunreadable
        unbound := fun _ other hother => ?_
        settled := fun _ other hother _ => ?_ }
    · rw [hevaluate]
      dsimp only
      split <;> simp [hblank]
    · rw [hevaluate]
      dsimp only
      split <;> simp [h]
    · obtain rfl := Except.ok.inj (hparse.symm.trans hother)
      rw [hevaluate]
      dsimp only
      split <;> simp [hnames]
    · obtain rfl := Except.ok.inj (hparse.symm.trans hother)
      refine ⟨raw, hraw, ?_⟩
      rw [hevaluate]
      dsimp only
      by_cases hround : CanBeRounded raw <;> simp [hround]

theorem decided (formula : String) (grades : List ComponentGrade) :
    Decided formula grades (evaluate formula grades) := by
  cases hblank : Text.isBlankText formula with
  | true => exact decided_of_blank hblank
  | false =>
    cases hfound : grades.find? ComponentGrade.isMissing with
    | some grade => exact decided_of_missing hblank hfound
    | none =>
      cases hparse : Formula.parse formula {} with
      | error error => exact decided_of_parse_error hblank hfound hparse
      | ok tree => exact decided_of_parse hfound hparse

/-- What is wrong with a text shows only for a student with all grades. -/
theorem parse_of_evaluate {error : FormulaError}
    (h : evaluate formula grades = .pending (.failed error)) (hkind : error.isSyntax = true) :
    Text.isBlankText formula = false ∧ Formula.parse formula {} = .error error := by
  have hdecided := decided formula grades
  cases hblank : Text.isBlankText formula with
  | true =>
    rw [evaluate_of_blank hblank] at h
    cases h
  | false =>
    cases hfound : grades.find? ComponentGrade.isMissing with
    | some grade =>
      rw [evaluate_of_missing hblank hfound] at h
      cases h
    | none => exact ⟨rfl, (hdecided.unreadable hblank hfound error).mp ⟨h, hkind⟩⟩

/--
The outcome is decided by the first condition that holds: no formula, a missing grade, an error in
the text, a name without a grade, a value that is not finite; without any there is a grade. An error
in the text is the outcome of every student with all grades, and no student has a grade; a formula
that has been read never fails so.
-/
theorem evaluate_decided (formula : String) (grades : List ComponentGrade) :
    Decided formula grades (evaluate formula grades) ∧
      (∀ error, evaluate formula grades = .pending (.failed error) → error.isSyntax = true →
        ∀ others : List ComponentGrade,
          ((∀ grade ∈ others, grade.isMissing = false) →
            evaluate formula others = .pending (.failed error)) ∧
          ∀ grade, evaluate formula others ≠ .graded grade) ∧
      ∀ (parsed : ParsedFormula) (error : FormulaError),
        parsed.evaluate grades = .pending (.failed error) → error.isSyntax = false := by
  refine ⟨decided formula grades, fun error h hkind others => ?_,
    fun parsed error h => ParsedFormula.isSyntax_of_evaluate h⟩
  obtain ⟨hblank, hparse⟩ := parse_of_evaluate h hkind
  constructor
  · intro hpresent
    refine evaluate_of_parse_error hblank (List.find?_eq_none.mpr fun grade hgrade => ?_) hparse
    rw [hpresent grade hgrade]
    decide
  · intro grade hgraded
    have hunreadable : ParsedFormula.ofText formula {} = .error error := by
      rw [ParsedFormula.ofText, hparse]
      rfl
    have hnone : (evaluate formula others).grade? = none := evaluate_of_unreadable hunreadable
    rw [hgraded] at hnone
    cases hnone

theorem evaluate_decided_unfinished :
    evaluate "(p1 +" [⟨"P1", some 7⟩] = .pending (.failed .unexpectedEnd) ∧
      FormulaError.unexpectedEnd.isSyntax = true ∧
      (∀ grade ∈ [⟨"Lab", some 3⟩, ⟨"lab", some 12⟩], ComponentGrade.isMissing grade = false) ∧
      evaluate "(p1 +" [⟨"Lab", some 3⟩, ⟨"lab", some 12⟩] =
        .pending (.failed .unexpectedEnd) := by
  have hparse : Formula.parse "(p1 +" {} = .error .unexpectedEnd := by cbv
  obtain ⟨hdecided, hothers, _⟩ := evaluate_decided "(p1 +" [⟨"P1", some 7⟩]
  have hpresent : [⟨"P1", some 7⟩].find? ComponentGrade.isMissing = none := by decide +kernel
  have hfailed := ((hdecided.unreadable (by decide +kernel) hpresent _).mpr hparse).1
  have hgrades : ∀ grade ∈ [⟨"Lab", some 3⟩, ⟨"lab", some 12⟩],
      ComponentGrade.isMissing grade = false := by decide +kernel
  exact ⟨hfailed, rfl, hgrades, (hothers _ hfailed rfl _).1 hgrades⟩

end Evaluate

end FinalGrades
