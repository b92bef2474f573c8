import FinalGrades.Proofs.Coverage.Mentioned
import FinalGrades.Proofs.Course.Clean
import FinalGrades.Proofs.Course.Roster
import FinalGrades.Proofs.Outcome
import Mathlib

/-!
What the students of a course without warnings have to expect: each of them is graded or waits for
a grade that was not recorded, unless the formula has no finite value.
-/

namespace FinalGrades.Course

variable {course : Course} {student : Student} {entry : RosterEntry} {sigla : String}

/-- The first registered sigla, in the order of the siglas, that the entry has no grade for. -/
structure FirstUngraded (course : Course) (entry : RosterEntry) (sigla : String) : Prop where
  registered : sigla ∈ course.siglas
  ungraded : entry.components.get? sigla = some none
  least : ∀ other ∈ course.siglas, entry.components.get? other = some none → sigla ≤ other

theorem Clean.isFinite {grade : Binary64} (h : course.Clean) (hstudent : student ∈ course.students)
    (hgrade : student.grade? sigla = some grade) : grade.isFinite = true := by
  obtain ⟨key, _, hmem⟩ := Student.grade?_eq_some_iff.mp hgrade
  exact (h.grades student hstudent _ hmem).2.1

theorem Clean.covered (h : course.Clean) (hformula : Text.isBlankText course.formula = false) :
    (∃ tree, Formula.parse course.formula {} = .ok tree) ∧
      (Coverage.ofFormula course.formula course.siglas).messages = [] := by
  rcases h.formula with ⟨hblank, _⟩ | ⟨_, hcovered⟩
  · rw [hformula] at hblank
    cases hblank
  · exact hcovered

/-- A name in the formula is a word of its text, and there are no unknown words. -/
theorem Clean.exists_sigla {tree : Formula} (h : course.Clean)
    (hparse : Formula.parse course.formula {} = .ok tree)
    (hformula : Text.isBlankText course.formula = false) {name : String}
    (hname : name ∈ tree.names) : ∃ sigla ∈ course.siglas, Text.upper sigla = name := by
  obtain ⟨_, hunknown⟩ := List.append_eq_nil_iff.mp (h.covered hformula).2
  by_contra hregistered
  have hmem : name ∈ (Coverage.ofFormula course.formula course.siglas).unknown.keys :=
    (Coverage.mem_unknown_of_parse hparse).mpr
      ⟨hname, fun sigla hsigla heq => hregistered ⟨sigla, hsigla, heq⟩⟩
  rw [List.map_eq_nil_iff.mp hunknown] at hmem
  cases hmem

section Entry

/-- With all recorded grades finite, a grade can only be missing by not being recorded. -/
theorem Clean.isMissing_iff (h : course.Clean) (hstudent : student ∈ course.students)
    {grade : ComponentGrade} (hgrade : grade ∈ (course.entryOf student).grades) :
    grade.isMissing = true ↔ grade.value = none := by
  obtain ⟨_, hvalue⟩ := mem_grades_entryOf_iff.mp hgrade
  unfold ComponentGrade.isMissing
  cases hrecorded : grade.value with
  | none => simp
  | some value =>
    rw [hrecorded] at hvalue
    simp [h.isFinite hstudent hvalue]

theorem Clean.firstUngraded (h : course.Clean) (hstudent : student ∈ course.students)
    {grade : ComponentGrade}
    (hfound : (course.entryOf student).grades.find? ComponentGrade.isMissing = some grade) :
    course.FirstUngraded (course.entryOf student) grade.sigla := by
  obtain ⟨hregistered, hvalue⟩ := mem_grades_entryOf_iff.mp (List.mem_of_find?_eq_some hfound)
  have hnone := (h.isMissing_iff hstudent (List.mem_of_find?_eq_some hfound)).mp
    (List.find?_some hfound)
  rw [RosterEntry.grades, List.find?_map] at hfound
  obtain ⟨⟨sigla, value⟩, hentry, rfl⟩ := Option.map_eq_some_iff.mp hfound
  obtain ⟨_, _, hleast⟩ := Keyed.find?_eq_some_iff.mp hentry
  refine ⟨hregistered, get?_entryOf_iff.mpr ⟨hregistered, hvalue.trans hnone⟩, ?_⟩
  intro other _ hother
  exact hleast (other, none) (Keyed.get?_eq_some_iff.mp hother) rfl

theorem find?_isMissing_eq_some {entry : RosterEntry}
    (h : entry.components.get? sigla = some none) :
    ∃ grade, entry.grades.find? ComponentGrade.isMissing = some grade := by
  have hmem : (⟨sigla, none⟩ : ComponentGrade) ∈ entry.grades :=
    List.mem_map.mpr ⟨(sigla, none), Keyed.get?_eq_some_iff.mp h, rfl⟩
  exact Option.isSome_iff_exists.mp (List.find?_isSome.mpr ⟨_, hmem, rfl⟩)

theorem Clean.settled {tree : Formula} (h : course.Clean)
    (hparse : Formula.parse course.formula {} = .ok tree)
    (hformula : Text.isBlankText course.formula = false)
    (hfound : (course.entryOf student).grades.find? ComponentGrade.isMissing = none) :
    (∃ grade, ParsedFormula.evaluate ⟨course.formula, tree⟩ (course.entryOf student).grades =
        .graded grade) ∨
      ParsedFormula.evaluate ⟨course.formula, tree⟩ (course.entryOf student).grades =
        .pending (.failed .nonFinite) := by
  refine ParsedFormula.evaluate_of_named hfound fun name hname => ?_
  obtain ⟨sigla, hsigla, rfl⟩ := h.exists_sigla hparse hformula hname
  exact ⟨⟨sigla, student.grade? sigla⟩, mem_grades_entryOf_iff.mpr ⟨hsigla, rfl⟩, rfl⟩

end Entry

/--
On a course without warnings a student's grade is pending for a missing grade exactly if a
registered sigla is not graded, and then the first such sigla is named. Otherwise the student is
graded, unless the formula's value is not finite. Reading the formula beforehand makes no
difference.
-/
theorem evaluate_of_no_warnings (hwarnings : course.warnings = [])
    (hformula : Text.isBlankText course.formula = false) (hentry : entry ∈ course.roster) :
    ∃ parsed, ParsedFormula.ofText course.formula {} = .ok parsed ∧
      evaluate course.formula entry.grades = parsed.evaluate entry.grades ∧
      ((∃ sigla, parsed.evaluate entry.grades = .pending (.missingComponent sigla)) ↔
        ∃ sigla ∈ course.siglas, entry.components.get? sigla = some none) ∧
      (∀ sigla, parsed.evaluate entry.grades = .pending (.missingComponent sigla) →
        course.FirstUngraded entry sigla) ∧
      ((∀ sigla ∈ course.siglas, entry.components.get? sigla ≠ some none) →
        (∃ grade, parsed.evaluate entry.grades = .graded grade) ∨
          parsed.evaluate entry.grades = .pending (.failed .nonFinite)) := by
  have hclean := warnings_eq_nil_iff.mp hwarnings
  obtain ⟨student, hstudent, rfl⟩ := List.mem_map.mp (roster_eq_map course ▸ hentry)
  obtain ⟨⟨tree, hparse⟩, _⟩ := hclean.covered hformula
  have hparsed := ParsedFormula.ofText_of_parse hparse
  refine ⟨_, hparsed, evaluate_of_readable hformula hparsed, ?_⟩
  cases hfound : (course.entryOf student).grades.find? ComponentGrade.isMissing with
  | some grade =>
    have hfirst := hclean.firstUngraded hstudent hfound
    rw [ParsedFormula.evaluate_of_missing hfound]
    refine ⟨⟨fun _ => ⟨_, hfirst.registered, hfirst.ungraded⟩, fun _ => ⟨_, rfl⟩⟩, ?_, ?_⟩
    · intro sigla heq
      cases heq
      exact hfirst
    · intro hgraded
      exact absurd hfirst.ungraded (hgraded _ hfirst.registered)
  | none =>
    have hsettled := hclean.settled hparse hformula hfound
    have hpresent : ∀ sigla, ParsedFormula.evaluate ⟨course.formula, tree⟩
        (course.entryOf student).grades ≠ .pending (.missingComponent sigla) := by
      rcases hsettled with ⟨grade, hgraded⟩ | hfailed
      · simp [hgraded]
      · simp [hfailed]
    refine ⟨⟨fun ⟨sigla, h⟩ => absurd h (hpresent sigla), ?_⟩,
      fun sigla h => absurd h (hpresent sigla), fun _ => hsettled⟩
    rintro ⟨sigla, _, hungraded⟩
    obtain ⟨grade, hmissing⟩ := find?_isMissing_eq_some hungraded
    rw [hfound] at hmissing
    cases hmissing

theorem evaluate_of_no_warnings_ratio :
    ∃ (course : Course) (entry : RosterEntry), course.formula = "p1 / lab" ∧
      course.siglas = ["P1", "Lab"] ∧
      entry.components = .ofList [("P1", some 4), ("Lab", none)] ∧
      course.warnings = [] ∧ Text.isBlankText course.formula = false ∧ entry ∈ course.roster ∧
      ∃ sigla, evaluate course.formula entry.grades = .pending (.missingComponent sigla) ∧
        course.FirstUngraded entry sigla := by
  have hparse : Formula.parse "p1 / lab" {} =
      .ok (.chain (.variable "P1") (.step .over (.variable "LAB") .done)) := by cbv
  let course : Course :=
    { id := "c", name := "C", formula := "p1 / lab"
      components := [{ sigla := "P1" }, { sigla := "Lab" }]
      students := [{ id := "1", grades := .ofList [("p1", 4), ("LAB", 8)] },
        { id := "2", grades := .ofList [("p1", 4)] }] }
  have hclean : course.Clean :=
    ⟨by decide +kernel, by decide +kernel, .inr ⟨by decide +kernel, ⟨_, hparse⟩, by decide +kernel⟩,
      rfl, by decide +kernel, by decide +kernel⟩
  have hwarnings := warnings_eq_nil_iff.mpr hclean
  have hformula : Text.isBlankText course.formula = false := by decide +kernel
  have hentry : course.entryOf ⟨"2", none, .ofList [("p1", 4)]⟩ ∈ course.roster := by
    decide +kernel
  obtain ⟨parsed, _, heq, hmissing, hfirst, _⟩ := evaluate_of_no_warnings hwarnings hformula hentry
  obtain ⟨sigla, hsigla⟩ := hmissing.mpr ⟨"Lab", by decide +kernel, by decide +kernel⟩
  exact ⟨course, _, rfl, rfl, by decide +kernel, hwarnings, hformula, hentry, sigla,
    heq.trans hsigla, hfirst sigla hsigla⟩

end FinalGrades.Course
