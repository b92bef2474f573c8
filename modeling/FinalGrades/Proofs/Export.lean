import FinalGrades.Export
import FinalGrades.Proofs.Course.Roster
import FinalGrades.Proofs.Roster
import Mathlib

/-!
What an export contains, and when it is refused. The rows come from two passes over the roster, one
for the components and one for the final grades, and the refusal from a third: all three speak of
the same students and of the same grades.
-/

namespace FinalGrades

namespace RosterEntry

variable {entry : RosterEntry} {sigla : String}

/-- The siglas without a grade, in order. -/
def ungraded (entry : RosterEntry) : List String :=
  entry.components.entries.filterMap fun (sigla, value) => if value.isNone then some sigla else none

theorem mem_ungraded_iff : sigla ∈ entry.ungraded ↔ entry.components.get? sigla = some none := by
  rw [Keyed.get?_eq_some_iff, ungraded, List.mem_filterMap]
  constructor
  · rintro ⟨⟨name, value⟩, hmem, h⟩
    cases value with
    | none =>
      cases h
      exact hmem
    | some grade => cases h
  · intro hmem
    exact ⟨_, hmem, rfl⟩

theorem sorted_ungraded (entry : RosterEntry) : entry.ungraded.Pairwise (· < ·) := by
  refine entry.components.sorted.filterMap _ ?_
  rintro ⟨name, value⟩ ⟨name', value'⟩ hlt sigla h sigla' h'
  cases value with
  | some grade => cases h
  | none =>
    cases value' with
    | some grade => cases h'
    | none =>
      cases h
      cases h'
      exact hlt

end RosterEntry

namespace Course

variable {course : Course} {entry : RosterEntry} {sigla : String}

theorem missingGrades_eq_flatMap (course : Course) : course.missingGrades =
    course.roster.flatMap fun entry => entry.ungraded.map (entry.studentId, ·) := by
  unfold missingGrades
  congr 1
  funext entry
  rw [RosterEntry.ungraded, List.map_filterMap]
  congr 1
  funext ⟨sigla, value⟩
  cases value <;> rfl

theorem mem_siglas_of_get? {value : Option Binary64} (hentry : entry ∈ course.roster)
    (h : entry.components.get? sigla = some value) : sigla ∈ course.siglas := by
  obtain ⟨student, _, rfl⟩ := List.mem_map.mp (roster_eq_map course ▸ hentry)
  exact (get?_entryOf_iff.mp h).1

theorem mem_ungraded_iff (hentry : entry ∈ course.roster) : sigla ∈ entry.ungraded ↔
    sigla ∈ course.siglas ∧ entry.components.get? sigla = some none := by
  rw [RosterEntry.mem_ungraded_iff]
  exact ⟨fun h => ⟨mem_siglas_of_get? hentry h, h⟩, And.right⟩

/-- Some student has no grade for some component. -/
def Incomplete (course : Course) : Prop :=
  ∃ entry ∈ course.roster, ∃ sigla ∈ course.siglas, entry.components.get? sigla = some none

theorem missingGrades_eq_nil_iff : course.missingGrades = [] ↔ ¬course.Incomplete := by
  rw [missingGrades_eq_flatMap, ← not_iff_not, not_not]
  -- Both sides now name one missing grade.
  constructor
  · intro h
    obtain ⟨_, hmem⟩ := List.exists_mem_of_ne_nil _ h
    obtain ⟨entry, hentry, hmem⟩ := List.mem_flatMap.mp hmem
    obtain ⟨sigla, hsigla, _⟩ := List.mem_map.mp hmem
    exact ⟨entry, hentry, sigla, (mem_ungraded_iff hentry).mp hsigla⟩
  · rintro ⟨entry, hentry, sigla, _, hnone⟩
    have hsigla := List.mem_map_of_mem (f := (entry.studentId, ·))
      (RosterEntry.mem_ungraded_iff.mpr hnone)
    exact List.ne_nil_of_mem (List.mem_flatMap.mpr ⟨entry, hentry, hsigla⟩)

end Course

namespace Summary

variable (finals : List StudentFinal)

theorem graded_ofFinals : (ofFinals finals).graded = finals.countP (·.grade.isSome) :=
  List.length_filterMap_eq_countP

theorem pending_ofFinals : (ofFinals finals).pending = finals.countP (·.grade.isNone) := by
  have hgraded := graded_ofFinals finals
  have htotal := finals.length_eq_countP_add_countP (·.grade.isSome)
  have hnone : finals.countP (fun final => decide ¬final.grade.isSome = true) =
      finals.countP (·.grade.isNone) := List.countP_congr fun final _ => by simp
  have hpending : (ofFinals finals).pending = finals.length - (ofFinals finals).graded := rfl
  omega

end Summary

namespace RosterExport

variable {course : Course} {options : ExportOptions} {now : Timestamp} {limits : Limits}

/-- The row of a student: each cell is what the student's entry has for the sigla of its column. -/
structure RowOf (course : Course) (limits : Limits) (student : Student × RosterEntry) (row : Row) :
    Prop where
  studentId : row.studentId = student.1.id
  name : row.name = student.1.name
  components : List.Forall₂ (fun sigla cell => student.2.components.get? sigla = some cell)
    course.siglas row.components
  finalGrade : row.finalGrade = gradeUnder limits course.formula student.2.grades

/-- An export has a row for every student, in their order, and a summary of just these rows. -/
structure Reports (course : Course) (limits : Limits) (report : RosterExport) : Prop where
  heading : report.course = ⟨course.id, course.name, course.formula, course.siglas⟩
  length_rows : report.rows.length = course.students.length
  rows : List.Forall₂ (RowOf course limits) (course.students.zip course.roster) report.rows
  summary : report.summary =
    Summary.ofFinals (report.rows.map fun row => ⟨row.studentId, row.finalGrade⟩)
  students : report.summary.students = report.rows.length
  graded : report.summary.graded = report.rows.countP (·.finalGrade.isSome)
  pending : report.summary.pending = report.rows.countP (·.finalGrade.isNone)

def finalOf (course : Course) (limits : Limits) (student : Student) : StudentFinal :=
  ⟨student.id, gradeUnder limits course.formula (course.entryOf student).grades⟩

/-- The export of a course, whether or not all its grades are there. -/
def contentOf (course : Course) (limits : Limits) (now : Timestamp) : RosterExport :=
  { generatedAt := now
    course := ⟨course.id, course.name, course.formula, course.siglas⟩
    rows := course.students.map fun student =>
      row course.siglas (course.entryOf student) (finalOf course limits student)
    summary := Summary.ofFinals (course.students.map (finalOf course limits)) }

theorem finals_roster : Roster.finals course.formula course.roster limits =
    course.students.map (finalOf course limits) := by
  rw [Roster.finals_eq_map_gradeUnder, Course.roster_eq_map, List.map_map]
  rfl

theorem build_eq (course : Course) (options : ExportOptions) (now : Timestamp) :
    build course options now =
      (if options.requireComplete then course.checkComplete else .ok ()).map fun _ =>
        contentOf course options.limits now := by
  have hrows : course.roster.zipWith (row course.siglas)
      (course.students.map (finalOf course options.limits)) =
      (contentOf course options.limits now).rows := by
    rw [Course.roster_eq_map, List.zipWith_map, List.zipWith_self]
    rfl
  unfold build
  simp only [finals_roster, hrows]
  -- The check is the only step that can fail, and nothing depends on what it returns.
  split
  next => cases course.checkComplete <;> rfl
  next => rfl

theorem build_of_allowed (h : options.requireComplete = false ∨ ¬course.Incomplete) :
    build course options now = .ok (contentOf course options.limits now) := by
  rw [build_eq]
  rcases h with hrequire | hcomplete
  · rw [hrequire]
    rfl
  · rw [Course.checkComplete, Course.missingGrades_eq_nil_iff.mpr hcomplete]
    cases options.requireComplete <;> rfl

theorem build_of_refused (hrequire : options.requireComplete = true) (h : course.Incomplete) :
    build course options now = .error (.incomplete course.missingGrades) := by
  have hmissing : course.missingGrades.isEmpty = false := by
    rw [List.isEmpty_eq_false_iff]
    exact fun hnil => Course.missingGrades_eq_nil_iff.mp hnil h
  rw [build_eq, if_pos hrequire, Course.checkComplete, hmissing]
  rfl

theorem rowOf_row {student : Student} : RowOf course limits (student, course.entryOf student)
    (row course.siglas (course.entryOf student) (finalOf course limits student)) := by
  refine ⟨rfl, rfl, ?_, rfl⟩
  rw [row, List.forall₂_map_right_iff, List.forall₂_same]
  intro sigla hsigla
  rw [Course.get?_entryOf_iff.mpr ⟨hsigla, rfl⟩, Option.join_some]

theorem reports_contentOf : Reports course limits (contentOf course limits now) := by
  refine ⟨rfl, List.length_map _, ?_, ?_, ?_, ?_, ?_⟩
  · rw [Course.roster_eq_map, ← List.map_prod_left_eq_zip, contentOf, List.forall₂_map_left_iff,
      List.forall₂_map_right_iff, List.forall₂_same]
    exact fun student _ => rowOf_row
  · rw [contentOf, List.map_map]
    rfl
  · exact (List.length_map _).trans (List.length_map _).symm
  · refine (Summary.graded_ofFinals _).trans ?_
    rw [contentOf, List.countP_map, List.countP_map]
    rfl
  · refine (Summary.pending_ofFinals _).trans ?_
    rw [contentOf, List.countP_map, List.countP_map]
    rfl

theorem none_notMem_components (hcomplete : ¬course.Incomplete) :
    ∀ row ∈ (contentOf course limits now).rows, none ∉ row.components := by
  intro row hrow hnone
  obtain ⟨student, hstudent, rfl⟩ := List.mem_map.mp hrow
  obtain ⟨sigla, hsigla, hcell⟩ := List.mem_map.mp hnone
  rw [Course.get?_entryOf_iff.mpr ⟨hsigla, rfl⟩, Option.join_some] at hcell
  have hentry : course.entryOf student ∈ course.roster := List.mem_map_of_mem hstudent
  exact hcomplete ⟨_, hentry, sigla, hsigla, Course.get?_entryOf_iff.mpr ⟨hsigla, hcell⟩⟩

/--
An export is refused exactly if it has to be complete and a grade is missing, and then with all
missing grades, in the order of the students and of the siglas. Otherwise it reports all students,
the same whether or not it has to be complete.
-/
theorem build_reports (course : Course) (options : ExportOptions) (now : Timestamp) :
    ((∃ error, build course options now = .error error) ↔
      options.requireComplete = true ∧ course.Incomplete) ∧
    (∀ error, build course options now = .error error →
      error = .incomplete (course.roster.flatMap fun entry =>
        entry.ungraded.map (entry.studentId, ·)) ∧
      ∀ entry ∈ course.roster, entry.ungraded.Pairwise (· < ·) ∧
        ∀ sigla, sigla ∈ entry.ungraded ↔
          sigla ∈ course.siglas ∧ entry.components.get? sigla = some none) ∧
    ∀ report, build course options now = .ok report →
      report.generatedAt = now ∧ Reports course options.limits report ∧
      (∀ later, build course { options with requireComplete := false } later =
        .ok { report with generatedAt := later }) ∧
      (options.requireComplete = true → ∀ row ∈ report.rows, none ∉ row.components) := by
  by_cases h : options.requireComplete = true ∧ course.Incomplete
  · rw [build_of_refused h.1 h.2]
    refine ⟨iff_of_true ⟨_, rfl⟩ h, ?_, ?_⟩
    · intro error herror
      cases herror
      refine ⟨congrArg _ course.missingGrades_eq_flatMap, fun entry hentry => ?_⟩
      exact ⟨entry.sorted_ungraded, fun sigla => Course.mem_ungraded_iff hentry⟩
    · intro report hreport
      cases hreport
  · have hallowed : options.requireComplete = false ∨ ¬course.Incomplete := by
      rw [← Bool.not_eq_true, ← not_and_or]
      exact h
    rw [build_of_allowed hallowed]
    refine ⟨iff_of_false ?_ h, ?_, ?_⟩
    · rintro ⟨error, herror⟩
      cases herror
    · intro error herror
      cases herror
    · intro report hreport
      cases hreport
      refine ⟨rfl, reports_contentOf, fun later => build_of_allowed (.inl rfl), fun hrequire => ?_⟩
      exact none_notMem_components fun hincomplete => h ⟨hrequire, hincomplete⟩

/-- A sigla in two columns, and a grade that is missing for the second student's final grade. -/
theorem build_reports_repeated :
    ∃ (course : Course) (now : Timestamp), course.siglas = ["P1", "Lab", "P1"] ∧
      build course (.ofSettings {}) now = .error (.incomplete [("b", "Lab")]) ∧
      ∃ report, build course (.ofSettings { requireComplete := false }) now = .ok report ∧
        report.rows.map (·.components) = [[some 4, some 8, some 4], [some 5, none, some 5]] ∧
        report.rows.map (·.finalGrade) = [some (1 / 2), none] := by
  let course : Course :=
    { id := "c", name := "C", formula := "P1 / Lab"
      components := [{ sigla := "P1" }, { sigla := "Lab" }, { sigla := "P1" }]
      students := [{ id := "a", grades := .ofList [("P1", 4), ("lab", 8)] },
        { id := "b", grades := .ofList [("p1", 5)] }] }
  let now : Timestamp := ⟨⟨2025, 1, 1⟩, 0, 0⟩
  have hincomplete : course.Incomplete :=
    ⟨course.entryOf { id := "b", grades := .ofList [("p1", 5)] }, by decide +kernel, "Lab",
      by decide +kernel, by decide +kernel⟩
  obtain ⟨hrefused, hmissing, _⟩ := build_reports course (.ofSettings {}) now
  obtain ⟨error, herror⟩ := hrefused.mpr ⟨rfl, hincomplete⟩
  obtain ⟨rfl, _⟩ := hmissing error herror
  let tree : Formula := .chain (.variable "P1") (.step .over (.variable "LAB") .done)
  have hparse : Formula.parse "P1 / Lab" {} = .ok tree := by cbv
  have hgrades (grades : List ComponentGrade) : gradeUnder {} "P1 / Lab" grades =
      (ParsedFormula.evaluate ⟨"P1 / Lab", tree⟩ grades).grade? :=
    gradeUnder_of_readable (ParsedFormula.ofText_of_parse hparse)
  have hfinals : (contentOf course {} now).rows.map (·.finalGrade) =
      course.students.map fun student => gradeUnder {} "P1 / Lab" (course.entryOf student).grades :=
    rfl
  simp only [hgrades] at hfinals
  refine ⟨course, now, rfl, herror, _, build_of_allowed (.inl rfl), by decide +kernel, ?_⟩
  exact hfinals.trans (by decide +kernel)

end RosterExport

end FinalGrades
