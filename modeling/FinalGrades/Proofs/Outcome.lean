import FinalGrades.Outcome
import FinalGrades.Proofs.Formula.Limits
import FinalGrades.Proofs.Formula.Value

/-!
How the checks on a formula and on a student's grades combine. The text is judged for blanks first,
then the grades, then the formula; so a formula that can be read gives the same outcome whether it
is read for one student or beforehand. With all grades there and all names of the formula among the
siglas, only a value that is not finite leaves a student pending.

`gradeUnder` is the grade of one student by a formula that is read under given limits.
-/

namespace FinalGrades

variable {formula : String} {parsed : ParsedFormula} {grades : List ComponentGrade}

theorem Outcome.grade?_eq_some_iff {outcome : Outcome} {grade : Binary64} :
    outcome.grade? = some grade ↔ outcome = .graded grade := by
  cases outcome <;> simp [grade?]

namespace ParsedFormula

theorem evaluate_of_ungraded {reason : PendingReason} (h : bindGrades grades [] = .error reason) :
    parsed.evaluate grades = .pending reason := by
  unfold evaluate
  rw [h]

end ParsedFormula

theorem evaluate_of_blank (h : Text.isBlankText formula = true) :
    evaluate formula grades = .pending .noFormula := by
  unfold evaluate
  rw [if_pos h]

/-- A student without all grades is pending for the same reason on both ways. -/
theorem evaluate_of_readable (hblank : Text.isBlankText formula = false)
    (h : ParsedFormula.ofText formula {} = .ok parsed) :
    evaluate formula grades = parsed.evaluate grades := by
  unfold evaluate
  rw [hblank, h]
  cases hbind : bindGrades grades [] with
  | error reason => rw [ParsedFormula.evaluate_of_ungraded hbind]; rfl
  | ok bindings => rfl

/-- Without a formula to work out, only the reason depends on the student. -/
theorem evaluate_of_unreadable {error : FormulaError}
    (h : ParsedFormula.ofText formula {} = .error error) :
    (evaluate formula grades).grade? = none := by
  unfold evaluate
  split
  next => rfl
  next =>
    rw [h]
    cases bindGrades grades [] <;> rfl

theorem ParsedFormula.ofText_of_parse {limits : Limits} {tree : Formula}
    (h : Formula.parse formula limits = .ok tree) :
    ofText formula limits = .ok ⟨formula, tree⟩ := ofText_eq_ok.mpr ⟨tree, h, rfl⟩

/-- The grade by a formula that is read under the limits; there is none if it cannot be read. -/
def gradeUnder (limits : Limits) (formula : String) (grades : List ComponentGrade) :
    Option Binary64 :=
  match ParsedFormula.ofText formula limits with
  | .ok parsed => (parsed.evaluate grades).grade?
  | .error _ => none

section GradeUnder

variable {limits : Limits}

theorem gradeUnder_of_readable (h : ParsedFormula.ofText formula limits = .ok parsed) :
    gradeUnder limits formula grades = (parsed.evaluate grades).grade? := by
  rw [gradeUnder, h]

theorem gradeUnder_of_unreadable {error : FormulaError}
    (h : ParsedFormula.ofText formula limits = .error error) :
    gradeUnder limits formula grades = none := by
  rw [gradeUnder, h]

theorem gradeUnder_of_parse_ne_ok (h : ∀ tree, Formula.parse formula limits ≠ .ok tree) :
    gradeUnder limits formula grades = none := by
  cases hread : ParsedFormula.ofText formula limits with
  | ok parsed =>
    obtain ⟨tree, hparse, _⟩ := ParsedFormula.ofText_eq_ok.mp hread
    exact absurd hparse (h tree)
  | error error => exact gradeUnder_of_unreadable hread

theorem gradeUnder_of_blank (h : Text.isBlankText formula = true) :
    gradeUnder limits formula grades = none := by
  refine gradeUnder_of_parse_ne_ok fun tree hparse => ?_
  rw [Formula.isBlankText_of_parse hparse] at h
  cases h

/-- The checks for one student come to the same as reading the formula beforehand. -/
theorem grade?_evaluate : (evaluate formula grades).grade? = gradeUnder {} formula grades := by
  cases hblank : Text.isBlankText formula with
  | true =>
    rw [evaluate_of_blank hblank, gradeUnder_of_blank hblank]
    rfl
  | false =>
    cases hread : ParsedFormula.ofText formula {} with
    | ok parsed => rw [evaluate_of_readable hblank hread, gradeUnder_of_readable hread]
    | error error => rw [evaluate_of_unreadable hread, gradeUnder_of_unreadable hread]

end GradeUnder

/-- No grade that can be clamped: there is none, or it is not finite. -/
def ComponentGrade.isMissing (grade : ComponentGrade) : Bool := !grade.value.any Binary64.isFinite

theorem bindGrades_of_missing {grade : ComponentGrade} {bindings : Bindings}
    (h : grades.find? ComponentGrade.isMissing = some grade) :
    bindGrades grades bindings = .error (.missingComponent grade.sigla) := by
  fun_induction bindGrades grades bindings with
  | case1 => cases h
  | case2 sigla value rest bindings hfinite ih =>
    rw [List.find?_cons_of_neg (by simp [ComponentGrade.isMissing, hfinite])] at h
    exact ih h
  | case3 sigla value rest bindings hfinite =>
    rw [List.find?_cons_of_pos (by simp [ComponentGrade.isMissing, hfinite])] at h
    cases h
    rfl
  | case4 sigla rest bindings =>
    rw [List.find?_cons_of_pos rfl] at h
    cases h
    rfl

/-- The names without a value are those that no sigla is in upper case. -/
theorem bindGrades_of_present (bindings : Bindings)
    (h : grades.find? ComponentGrade.isMissing = none) :
    ∃ bound, bindGrades grades bindings = .ok bound ∧ ∀ name, bound.lacks name = true ↔
      bindings.lacks name = true ∧ ∀ grade ∈ grades, Text.upper grade.sigla ≠ name := by
  fun_induction bindGrades grades bindings with
  | case1 bindings => exact ⟨bindings, rfl, by simp⟩
  | case2 sigla value rest bindings hfinite ih =>
    rw [List.find?_cons_of_neg (by simp [ComponentGrade.isMissing, hfinite])] at h
    obtain ⟨bound, hbound, hlacks⟩ := ih h
    refine ⟨bound, hbound, fun name => ?_⟩
    rw [hlacks, Bindings.lacks_cons, List.forall_mem_cons]
    exact and_assoc.trans and_left_comm
  | case3 sigla value rest bindings hfinite =>
    rw [List.find?_cons_of_pos (by simp [ComponentGrade.isMissing, hfinite])] at h
    cases h
  | case4 sigla rest bindings =>
    rw [List.find?_cons_of_pos rfl] at h
    cases h

namespace ParsedFormula

theorem evaluate_of_missing {grade : ComponentGrade}
    (h : grades.find? ComponentGrade.isMissing = some grade) :
    parsed.evaluate grades = .pending (.missingComponent grade.sigla) :=
  evaluate_of_ungraded (bindGrades_of_missing h)

end ParsedFormula

theorem gradeUnder_of_missing {limits : Limits} {grade : ComponentGrade} (h : grade ∈ grades)
    (hmissing : grade.isMissing = true) : gradeUnder limits formula grades = none := by
  obtain ⟨first, hfirst⟩ := Option.isSome_iff_exists.mp (List.find?_isSome.mpr ⟨grade, h, hmissing⟩)
  cases hread : ParsedFormula.ofText formula limits with
  | ok parsed =>
    rw [gradeUnder_of_readable hread, ParsedFormula.evaluate_of_missing hfirst]
    rfl
  | error error => exact gradeUnder_of_unreadable hread

namespace ParsedFormula

theorem evaluate_of_named (h : grades.find? ComponentGrade.isMissing = none)
    (hnames : ∀ name ∈ parsed.tree.names, ∃ grade ∈ grades, Text.upper grade.sigla = name) :
    (∃ grade, parsed.evaluate grades = .graded grade) ∨
      parsed.evaluate grades = .pending (.failed .nonFinite) := by
  obtain ⟨bound, hbound, hlacks⟩ := bindGrades_of_present [] h
  have hsettles := parsed.tree.settles bound
  have hfound : parsed.tree.occurrences.find? bound.lacks = none := by
    refine List.find?_eq_none.mpr fun name hname hlack => ?_
    obtain ⟨grade, hgrade, hupper⟩ := hnames name (List.mem_eraseDups.mpr hname)
    exact ((hlacks name).mp hlack).2 grade hgrade hupper
  rw [Settles, hfound] at hsettles
  obtain ⟨raw, hraw⟩ := hsettles
  unfold evaluate
  rw [hbound]
  simp only [hraw]
  cases finalGrade? raw with
  | some grade => exact .inl ⟨grade, rfl⟩
  | none => exact .inr rfl

end ParsedFormula

end FinalGrades
