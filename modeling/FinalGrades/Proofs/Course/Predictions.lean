import FinalGrades.Course.Document
import FinalGrades.Proofs.Course.Warnings
import FinalGrades.Proofs.Export
import Mathlib

/-!
What becomes in an export of the warnings that foretell pending grades. They speak of the formula as
it is read under the default limits, and of every recorded grade; the export has limits of its own
and takes only the grades that count for a component.
-/

namespace FinalGrades

namespace RosterExport

open Course Warning

variable {course : Course} {options : ExportOptions} {limits : Limits} {now : Timestamp}
  {student : Student}

theorem finalGrade_of_mem_rows {row : Row} (h : row ∈ (contentOf course limits now).rows) :
    ∃ student ∈ course.students, row.studentId = student.id ∧
      row.finalGrade = gradeUnder limits course.formula (course.entryOf student).grades := by
  obtain ⟨student, hstudent, rfl⟩ := List.mem_map.mp h
  exact ⟨student, hstudent, rfl, rfl⟩

/-- A grade that counts for a component and is not finite is as good as none. -/
theorem gradeUnder_of_notFinite {key sigla : String} {grade : Binary64}
    (hsigla : sigla ∈ course.siglas) (hcounts : student.CountsFor key sigla)
    (hgrade : (key, grade) ∈ student.grades.entries) (hfinite : grade.isFinite = false) :
    gradeUnder limits course.formula (course.entryOf student).grades = none := by
  have hfound : student.grade? sigla = some grade :=
    Student.grade?_eq_some_iff.mpr ⟨key, hcounts, hgrade⟩
  have hmem : (⟨sigla, some grade⟩ : ComponentGrade) ∈ (course.entryOf student).grades :=
    mem_grades_entryOf_iff.mpr ⟨hsigla, hfound⟩
  exact gradeUnder_of_missing hmem (by simp [ComponentGrade.isMissing, hfinite])

/--
Of the warnings that foretell pending grades, the one that there is no formula is always right. The
one that the formula cannot be read is, unless it is refused for its size and the export leaves more
room for it. The one that a grade is not finite is, if the grade counts for a component.
-/
theorem pending_of_warnings (options : ExportOptions) (now : Timestamp)
    (hids : (course.students.map (·.id)).Nodup)
    (hrequire : options.requireComplete = false) :
    ∃ report, build course options now = .ok report ∧
      (noFormula ∈ course.warnings → ∀ row ∈ report.rows, row.finalGrade = none) ∧
      (∀ reason, unreadable reason ∈ course.warnings →
        ∃ error, Formula.parse course.formula {} = .error error ∧ error.message = reason ∧
          (¬error.IsLifted {} options.limits → ∀ row ∈ report.rows, row.finalGrade = none)) ∧
      ∀ student ∈ course.students, ∀ key, notFinite student.id key ∈ course.warnings →
        (∃ sigla ∈ course.siglas, student.CountsFor key sigla) →
        ∀ row ∈ report.rows, row.studentId = student.id → row.finalGrade = none := by
  refine ⟨_, build_of_allowed (.inl hrequire), ?_, ?_, ?_⟩
  · intro hwarning row hrow
    obtain ⟨student, _, _, hfinal⟩ := finalGrade_of_mem_rows hrow
    rw [hfinal, gradeUnder_of_blank (isBlankText_of_noFormula hwarning)]
  · intro reason hwarning
    obtain ⟨error, hparse, hreason⟩ := parse_of_unreadable hwarning
    refine ⟨error, hparse, hreason, fun hlifted row hrow => ?_⟩
    obtain ⟨student, _, _, hfinal⟩ := finalGrade_of_mem_rows hrow
    rw [hfinal, gradeUnder_of_parse_ne_ok fun tree => Formula.parse_ne_ok hparse hlifted]
  · rintro student hstudent key hwarning ⟨sigla, hsigla, hcounts⟩ row hrow hid
    obtain ⟨grade, hgrade, hfinite⟩ := recorded_of_notFinite hids hstudent hwarning
    obtain ⟨other, hother, hotherId, hfinal⟩ := finalGrade_of_mem_rows hrow
    obtain rfl := List.inj_on_of_nodup_map hids hother hstudent (hotherId.symm.trans hid)
    rw [hfinal, gradeUnder_of_notFinite hsigla hcounts hgrade hfinite]

theorem pending_of_warnings_recorded :
    ∃ (course : Course) (student : Student) (now : Timestamp), course.siglas = ["P1", "P2"] ∧
      course.students = [student] ∧ student.grades = .ofList [("P2", 4), ("p1", .nan)] ∧
      notFinite student.id "p1" ∈ course.warnings ∧
      ∃ report, build course (.ofSettings { requireComplete := false }) now = .ok report ∧
        ∀ row ∈ report.rows, row.studentId = student.id → row.finalGrade = none := by
  let student : Student := { id := "a", grades := .ofList [("P2", 4), ("p1", .nan)] }
  let course : Course :=
    { id := "c", name := "C", formula := "P2"
      components := [{ sigla := "P1" }, { sigla := "P2" }], students := [student] }
  have hwarning : notFinite student.id "p1" ∈ course.warnings :=
    List.mem_append_right _ (by decide +kernel)
  have hcounts : student.CountsFor "p1" "P1" :=
    ⟨by decide +kernel, .inr ⟨by decide +kernel, by decide +kernel, by decide +kernel⟩⟩
  have hids : (course.students.map (·.id)).Nodup := by decide +kernel
  obtain ⟨report, hreport, _, _, hpending⟩ := pending_of_warnings
    (.ofSettings { requireComplete := false }) ⟨⟨2025, 1, 1⟩, 0, 0⟩ hids rfl
  exact ⟨course, student, _, rfl, rfl, rfl, hwarning, report, hreport,
    hpending student (by decide +kernel) "p1" hwarning ⟨"P1", by decide +kernel, hcounts⟩⟩

/-- A grade for the component, and one that is not finite for no component. -/
def uncountedText : String :=
  "[course]\nid = 'c'\nname = 'C'\nformula = 'P1'\n" ++
  "[[components]]\nsigla = 'P1'\n" ++
  "[[students]]\nid = 'a'\ngrades = \x7b P1 = 5, X = nan \x7d\n"

theorem read_uncountedText : Course.read uncountedText "c.toml" = .ok
    { id := "c", name := "C", formula := "P1", components := [{ sigla := "P1" }]
      students := [{ id := "a", grades := .ofList [("P1", 5), ("X", .nan)] }] } := by
  have htoml : Toml.read? uncountedText = some
      [("course", .table .header
        [("id", .text "c"), ("name", .text "C"), ("formula", .text "P1")]),
      ("components", .tables [[("sigla", .text "P1")]]),
      ("students", .tables
        [[("id", .text "a"), ("grades", .braces [("P1", .integer 5), ("X", .float .nan)])]])] := by
    cbv
  unfold Course.read readDocument Toml.Fields.ofText
  rw [htoml]
  decide +kernel

/-- No component takes the grade that is not finite, so the student is graded without it. -/
theorem pending_of_warnings_uncounted :
    ∃ (course : Course) (settings : Settings) (student : Student) (now : Timestamp)
      (report : RosterExport), Course.read uncountedText "c.toml" = .ok course ∧
      (course.students.map (·.id)).Nodup ∧
      Settings.read "require_complete = false\n" = .ok settings ∧
      settings.requireComplete = false ∧
      student ∈ course.students ∧ notFinite student.id "X" ∈ course.warnings ∧
      build course (.ofSettings settings) now = .ok report ∧
      ∃ row ∈ report.rows, row.studentId = student.id ∧ row.finalGrade = some 5 := by
  have hparse : Formula.parse "P1" {} = .ok (.variable "P1") := by cbv
  have hparsed := ParsedFormula.ofText_of_parse hparse
  have hreport : ∀ course, build course (.ofSettings { requireComplete := false })
      ⟨⟨2025, 1, 1⟩, 0, 0⟩ = .ok (contentOf course {} ⟨⟨2025, 1, 1⟩, 0, 0⟩) :=
    fun course => build_of_allowed (.inl rfl)
  refine ⟨_, { requireComplete := false }, _, _, _, read_uncountedText, by decide +kernel, by cbv,
    rfl, List.mem_cons_self, List.mem_append_right _ (by decide +kernel), hreport _, ?_⟩
  refine ⟨_, List.mem_map_of_mem List.mem_cons_self, rfl, ?_⟩
  exact (gradeUnder_of_readable hparsed).trans (by decide +kernel)

end RosterExport

end FinalGrades
