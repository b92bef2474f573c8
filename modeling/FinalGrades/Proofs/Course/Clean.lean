import FinalGrades.Course.Check
import Mathlib.Data.List.Basic

/-!
A course without warnings, said without them: what its siglas, its formula and its students then
have to be like.
-/

namespace FinalGrades.Course

section Earlier

variable {α : Type} {P : α → Prop} {R : α → α → Prop} {list : List α}

theorem forall_withEarlier_from (start : List α) :
    (∀ entry ∈ withEarlier start list, P entry.1 ∧ ∀ before ∈ entry.2, R before entry.1) ↔
      (∀ x ∈ list, P x) ∧ (∀ before ∈ start, ∀ x ∈ list, R before x) ∧ list.Pairwise R := by
  induction list generalizing start with
  | nil => simp [withEarlier]
  | cons x rest ih =>
    rw [withEarlier, List.forall_mem_cons, ih]
    simp only [List.forall_mem_cons, List.pairwise_cons, forall_and]
    tauto

/-- A condition on each element and on each with one before it. -/
theorem forall_withEarlier_iff :
    (∀ entry ∈ withEarlier [] list, P entry.1 ∧ ∀ before ∈ entry.2, R before entry.1) ↔
      (∀ x ∈ list, P x) ∧ list.Pairwise R := by
  rw [forall_withEarlier_from]
  simp

end Earlier

variable {course : Course} {siglas : List String} {sigla id : String}

theorem siglaWarnings_eq_nil_iff {earlier : List String} : siglaWarnings sigla earlier = [] ↔
    (isValidSigla sigla = true ∧ startsWithDigit sigla = false) ∧
      ∀ before ∈ earlier, Text.upper before ≠ Text.upper sigla := by
  rw [siglaWarnings, List.append_eq_nil_iff]
  refine and_congr ?_ (by simp)
  cases isValidSigla sigla <;> cases startsWithDigit sigla <;> simp

theorem formulaWarnings_eq_nil_iff : course.formulaWarnings = [] ↔
    (Text.isBlankText course.formula = true ∧ course.components = []) ∨
      (Text.isBlankText course.formula = false ∧
        (∃ tree, Formula.parse course.formula {} = .ok tree) ∧
        (Coverage.ofFormula course.formula course.siglas).messages = []) := by
  unfold formulaWarnings
  cases Text.isBlankText course.formula with
  | true => simp
  | false =>
    rw [if_neg Bool.false_ne_true, List.append_eq_nil_iff, List.map_eq_nil_iff]
    cases Formula.parse course.formula {} <;> simp

theorem gradeWarnings_eq_nil_iff {entry : String × Binary64} : gradeWarnings siglas id entry = [] ↔
    (∃ sigla ∈ siglas, Text.upper sigla = Text.upper entry.1) ∧ entry.2.isFinite = true ∧
      Grade.lowest ≤ entry.2 ∧ entry.2 ≤ Grade.highest := by
  rw [gradeWarnings, List.append_eq_nil_iff]
  refine and_congr (by simp) ?_
  cases entry.2.isFinite <;> simp

theorem studentWarnings_eq_nil_iff {student : Student} {earlier : List Student} :
    studentWarnings siglas student earlier = [] ↔
      (∀ entry ∈ student.grades.entries, gradeWarnings siglas student.id entry = []) ∧
        ∀ before ∈ earlier, before.id ≠ student.id := by
  rw [studentWarnings, List.append_eq_nil_iff, List.flatMap_eq_nil_iff, and_comm]
  refine and_congr Iff.rfl ?_
  simp

theorem forall_siglaWarnings_iff :
    (∀ entry ∈ withEarlier [] siglas, siglaWarnings entry.1 entry.2 = []) ↔
      (∀ sigla ∈ siglas, isValidSigla sigla = true ∧ startsWithDigit sigla = false) ∧
        (siglas.map Text.upper).Nodup := by
  simp only [siglaWarnings_eq_nil_iff]
  exact (forall_withEarlier_iff
    (P := fun sigla => isValidSigla sigla = true ∧ startsWithDigit sigla = false)
    (R := fun before sigla => Text.upper before ≠ Text.upper sigla)).trans
    (and_congr Iff.rfl List.pairwise_map.symm)

theorem forall_studentWarnings_iff {students : List Student} :
    (∀ entry ∈ withEarlier [] students, studentWarnings siglas entry.1 entry.2 = []) ↔
      (∀ student ∈ students, ∀ entry ∈ student.grades.entries,
        gradeWarnings siglas student.id entry = []) ∧ (students.map (·.id)).Nodup := by
  simp only [studentWarnings_eq_nil_iff]
  exact (forall_withEarlier_iff
    (P := fun student : Student => ∀ entry ∈ student.grades.entries,
      gradeWarnings siglas student.id entry = [])
    (R := fun before student : Student => before.id ≠ student.id)).trans
    (and_congr Iff.rfl List.pairwise_map.symm)

/-- What a course is like on which there are no warnings. -/
structure Clean (course : Course) : Prop where
  siglas : ∀ sigla ∈ course.siglas, isValidSigla sigla = true ∧ startsWithDigit sigla = false
  distinct : (course.siglas.map Text.upper).Nodup
  formula : (Text.isBlankText course.formula = true ∧ course.components = []) ∨
    (Text.isBlankText course.formula = false ∧
      (∃ tree, Formula.parse course.formula {} = .ok tree) ∧
      (Coverage.ofFormula course.formula course.siglas).messages = [])
  scheme : course.overridesScheme = false
  students : (course.students.map (·.id)).Nodup
  grades : ∀ student ∈ course.students, ∀ entry ∈ student.grades.entries,
    (∃ sigla ∈ course.siglas, Text.upper sigla = Text.upper entry.1) ∧ entry.2.isFinite = true ∧
      Grade.lowest ≤ entry.2 ∧ entry.2 ≤ Grade.highest

theorem warnings_eq_nil_iff : course.warnings = [] ↔ course.Clean := by
  have hscheme : (if course.overridesScheme = true then
      [({ message := "both formula and [average] are set; the explicit formula is used" } :
        Warning)] else []) = [] ↔ course.overridesScheme = false := by
    cases course.overridesScheme <;> simp
  simp only [warnings, List.append_eq_nil_iff, List.flatMap_eq_nil_iff, forall_siglaWarnings_iff,
    formulaWarnings_eq_nil_iff, hscheme, forall_studentWarnings_iff, gradeWarnings_eq_nil_iff]
  constructor
  · rintro ⟨⟨⟨⟨hsiglas, hdistinct⟩, hformula⟩, hscheme⟩, hgrades, hids⟩
    exact ⟨hsiglas, hdistinct, hformula, hscheme, hids, hgrades⟩
  · rintro ⟨hsiglas, hdistinct, hformula, hscheme, hids, hgrades⟩
    exact ⟨⟨⟨⟨hsiglas, hdistinct⟩, hformula⟩, hscheme⟩, hgrades, hids⟩

end FinalGrades.Course
