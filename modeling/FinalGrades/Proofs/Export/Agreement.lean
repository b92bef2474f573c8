import FinalGrades.Proofs.Export.Csv
import FinalGrades.Proofs.Export.Json
import FinalGrades.Proofs.Json.Grade
import FinalGrades.Proofs.Summary

/-!
The views of one export agree. The summary, the rows and the delimited text count the same students
and speak of the same grades. From the delimited text and from the JSON document one reads the same
final grades, unless there is one below minus a million millions, where the loader rounds twice.
-/

namespace FinalGrades

open Binary64

namespace IsGraded

variable {grade : Binary64}

/-- A grade is never above ten, so one bound is enough. -/
theorem exists_small_hundredths (h : IsGraded grade) (hlow : -ofNat (10 ^ 12) ≤ grade) :
    ∃ k : Int, k.natAbs ≤ 10 ^ 14 ∧ Grade.ofHundredths k = grade := by
  obtain ⟨k, hhigh, rfl⟩ := h.exists_hundredths
  exact ⟨k, Grade.natAbs_le_of_le hhigh hlow, rfl⟩

theorem read?_twoPlaces (h : IsGraded grade) (hlow : -ofNat (10 ^ 12) ≤ grade) :
    read? grade.twoPlaces.toList = some grade := by
  obtain ⟨k, hk, rfl⟩ := h.exists_small_hundredths hlow
  exact Grade.read?_ofHundredths hk

theorem read?_grade (h : IsGraded grade) (hlow : -ofNat (10 ^ 12) ≤ grade)
    (separator : Separator) :
    Display.read? separator (Display.grade (some grade) separator) = some grade :=
  (Display.read?_number grade separator).trans (h.read?_twoPlaces hlow)

theorem read?_json (h : IsGraded grade) (hlow : -ofNat (10 ^ 12) ≤ grade) :
    read? grade.json.toList = some grade ∧
      Json.number? (Json.ofNumber grade) = some grade := by
  obtain ⟨k, hk, rfl⟩ := h.exists_small_hundredths hlow
  exact Grade.read?_json_ofHundredths hk

theorem grade_ne (h : IsGraded grade) {separator : Separator} {text : String}
    (htext : Display.read? separator text = some (zero true)) :
    Display.grade (some grade) separator ≠ text := by
  obtain ⟨k, _, rfl⟩ := h.exists_hundredths
  rintro rfl
  exact Grade.read?_ofHundredths_ne h.isFinalGrade.finite
    ((Display.read?_number _ separator).symm.trans htext)

end IsGraded

/-- The final grade in the last field of a record. -/
def Csv.final? (separator : Separator) (record : List String) : Option (Option Binary64) :=
  record.getLast?.bind (Display.final? separator)

/-- The final grade in the object of a row. -/
def Row.final? (json : Json) : Option (Option Binary64) :=
  (Json.Fields.of? ["student_id", "name", "components", "final_grade"] json).bind
    (·.orNull? "final_grade" Json.number?)

theorem Row.carries_final {row : Row}
    (h : ∀ x ∈ row.finalGrade, x.isFinite = true ∧ Json.number? (Json.ofNumber x) = some x) :
    Json.Carries row.toJson Row.final? row.finalGrade := by
  have hid := Json.carries_ofString row.studentId
  have hname := Json.carries_ofOption row.name
  have hcomponents : (Json.ofList (Json.ofOption Json.ofNumber) row.components).Legible :=
    Json.legibleItems_map fun value _ => Json.legible_ofNumber value
  have hfinal := Json.carries_ofNumber row.finalGrade fun x hx _ => (h x hx).2
  rw [filter_isFinite_eq_iff.mpr fun x hx => (h x hx).1] at hfinal
  refine Json.carries_ofFields ?_ (by simp) ?_
  · simp [hid.legible, hname.legible, hcomponents, hfinal.legible]
  · simp [Json.Fields.orNull?, List.lookup_cons, hfinal.reads]

namespace RosterExport

variable {course : Course} {options : ExportOptions} {now : Timestamp} {report : RosterExport}
  {separator : Separator}

theorem eq_contentOf_of_build (h : build course options now = .ok report) :
    report = contentOf course options.limits now := by
  rw [build_eq, Attempt.map_eq_ok_iff] at h
  obtain ⟨_, _, rfl⟩ := h
  rfl

theorem isGraded_of_mem_rows (h : build course options now = .ok report) {row : Row}
    (hrow : row ∈ report.rows) {grade : Binary64} (hgrade : row.finalGrade = some grade) :
    IsGraded grade := by
  rw [eq_contentOf_of_build h] at hrow
  obtain ⟨student, _, rfl⟩ := List.mem_map.mp hrow
  exact isGraded_of_gradeUnder hgrade

section Agrees

/-- The summary speaks of the rows: of how many there are, and of the grades in them. -/
structure Agrees (report : RosterExport) : Prop where
  students : report.summary.students = report.rows.length
  total : report.summary.graded + report.summary.pending = report.summary.students
  pending : report.summary.pending = report.rows.countP (·.finalGrade.isNone)
  ungraded : (∀ row ∈ report.rows, row.finalGrade = none) →
    report.summary.mean = none ∧ report.summary.least = none ∧ report.summary.greatest = none
  graded : (∃ row ∈ report.rows, row.finalGrade ≠ none) → ∃ mean least greatest,
    report.summary.mean = some mean ∧ report.summary.least = some least ∧
      report.summary.greatest = some greatest ∧
      (∃ row ∈ report.rows, row.finalGrade = some least) ∧
      (∃ row ∈ report.rows, row.finalGrade = some greatest) ∧
      ∀ row ∈ report.rows, ∀ grade ∈ row.finalGrade, least ≤ grade ∧ grade ≤ greatest

/-- The grades of the rows that have one. -/
def rowGrades (report : RosterExport) : List Binary64 := report.rows.filterMap (·.finalGrade)

theorem mem_rowGrades {grade : Binary64} :
    grade ∈ report.rowGrades ↔ ∃ row ∈ report.rows, row.finalGrade = some grade :=
  List.mem_filterMap

theorem agrees_of_build (h : build course options now = .ok report) : Agrees report := by
  have hreports : Reports course options.limits report := by
    rw [eq_contentOf_of_build h]
    exact reports_contentOf
  have hgrades : Summary.grades (report.rows.map fun row => ⟨row.studentId, row.finalGrade⟩) =
      report.rowGrades := List.filterMap_map
  have hfinite : ∀ grade ∈ report.rowGrades, grade.isFinite = true := by
    intro grade hgrade
    obtain ⟨row, hrow, hfinal⟩ := mem_rowGrades.mp hgrade
    exact (isGraded_of_mem_rows h hrow hfinal).isFinalGrade.finite
  refine ⟨hreports.students, ?_, hreports.pending, fun hnone => ?_, fun hsome => ?_⟩
  · rw [hreports.summary]
    exact Summary.graded_add_pending _
  · rw [hreports.summary]
    refine Summary.ofFinals_of_ungraded ?_
    rw [hgrades]
    exact List.filterMap_eq_nil_iff.mpr hnone
  · have hne : report.rowGrades ≠ [] := by
      obtain ⟨row, hrow, hfinal⟩ := hsome
      obtain ⟨grade, hgrade⟩ := Option.ne_none_iff_exists'.mp hfinal
      exact List.ne_nil_of_mem (mem_rowGrades.mpr ⟨row, hrow, hgrade⟩)
    rw [← hgrades] at hne hfinite
    obtain ⟨hmean, ⟨least, hleast, hfirst⟩, greatest, hgreatest, hlast⟩ :=
      Summary.ofFinals_of_graded hne hfinite
    rw [← hreports.summary] at hmean hleast hgreatest
    rw [hgrades] at hfirst hlast
    refine ⟨_, least, greatest, hmean, hleast, hgreatest, mem_rowGrades.mp hfirst.mem,
      mem_rowGrades.mp hlast.mem, fun row hrow grade hgrade => ?_⟩
    have hmem := mem_rowGrades.mpr ⟨row, hrow, hgrade⟩
    exact ⟨hfirst.before grade hmem, hlast.before grade hmem⟩

end Agrees

section Tabulates

/--
The records of a delimited text below its header, one for each row, and how their last fields tell
the rows that have no final grade.
-/
structure Tabulates (report : RosterExport) (writing : ExportOptions) (text : String)
    (records : List (List String)) : Prop where
  written : text.toList =
    (Csv.header report.course :: records).flatMap (Csv.writeRecord writing.delimiter)
  length : records.length = report.summary.students
  pending : records.countP (·.getLast? = some "N/A") = report.summary.pending
  missing : List.Forall₂ (fun row record => record.getLast? = some "N/A" ↔ row.finalGrade = none)
    report.rows records
  reads : writing.delimiter ≠ '"' → writing.delimiter ≠ '\n' →
    Csv.read writing.delimiter text = some (Csv.header report.course :: records)

theorem getLast?_fields (separator : Separator) (row : Row) :
    (Csv.fields separator row).getLast? = some (Display.grade row.finalGrade separator) :=
  List.getLast?_concat

theorem getLast?_fields_eq_missing_iff {row : Row} :
    (Csv.fields separator row).getLast? = some "N/A" ↔ row.finalGrade = none := by
  rw [getLast?_fields, Option.some_inj, Display.grade_eq_missing_iff]

theorem exists_tabulates (h : build course options now = .ok report) (writing : ExportOptions) :
    ∃ text, Csv.write report writing = .ok text ∧
      Tabulates report writing text (report.rows.map (Csv.fields writing.separator)) := by
  have hagrees := agrees_of_build h
  have hwrite : Csv.write report writing = _ := Csv.write_of_aligned (Csv.aligned_of_build h)
  refine ⟨_, hwrite, String.toList_ofList, ?_, ?_, ?_, fun hquote hfeed => ?_⟩
  · rw [List.length_map, hagrees.students]
  · rw [List.countP_map, hagrees.pending]
    refine List.countP_congr fun row _ => ?_
    rw [Function.comp_apply, decide_eq_true_iff, getLast?_fields_eq_missing_iff,
      Option.isNone_iff_eq_none]
  · rw [List.forall₂_map_right_iff, List.forall₂_same]
    exact fun row _ => getLast?_fields_eq_missing_iff
  · exact Csv.read_of_write hquote hfeed hwrite

end Tabulates

theorem exists_build_pending : ∃ (course : Course) (options : ExportOptions) (now : Timestamp)
    (report : RosterExport), build course options now = .ok report ∧
      report.rows.map (·.finalGrade) = [some (-7), none] := by
  let course : Course :=
    { id := "c", name := "C", formula := "P1 - Lab"
      components := [{ sigla := "P1" }, { sigla := "Lab" }]
      students := [{ id := "a", grades := .ofList [("P1", 1), ("lab", 8)] },
        { id := "b", grades := .ofList [("p1", 5)] }] }
  let options : ExportOptions := .ofSettings { requireComplete := false }
  have hread := ParsedFormula.ofText_of_parse (show Formula.parse "P1 - Lab" options.limits =
    .ok (.chain (.variable "P1") (.step .minus (.variable "LAB") .done)) by cbv)
  refine ⟨course, options, ⟨⟨2025, 1, 1⟩, 0, 0⟩, _, build_of_allowed (.inl rfl), ?_⟩
  have hfinals : (contentOf course options.limits ⟨⟨2025, 1, 1⟩, 0, 0⟩).rows.map (·.finalGrade) =
      course.students.map fun student =>
        gradeUnder options.limits "P1 - Lab" (course.entryOf student).grades := List.map_map
  rw [hfinals]
  simp only [gradeUnder_of_readable hread]
  decide +kernel

/--
The summary of a built export counts the rows and those of them without a grade, and its figures
are those of the grades of the rows. However it is written as delimited text, that has a record
for each row, with `N/A` as its last field exactly if the row has no grade.
-/
theorem build_agrees (h : build course options now = .ok report) :
    Agrees report ∧ ∀ writing : ExportOptions, ∃ text records,
      Csv.write report writing = .ok text ∧ Tabulates report writing text records := by
  refine ⟨agrees_of_build h, fun writing => ?_⟩
  obtain ⟨text, hwrite, htabulates⟩ := exists_tabulates h writing
  exact ⟨text, _, hwrite, htabulates⟩

/-- A student below zero and one that has no grade yet. -/
theorem build_agrees_pending : ∃ (course : Course) (options : ExportOptions) (now : Timestamp)
    (report : RosterExport), build course options now = .ok report ∧
      report.rows.map (·.finalGrade) = [some (-7), none] ∧ Agrees report ∧
      ∀ writing : ExportOptions, ∃ text records,
        Csv.write report writing = .ok text ∧ Tabulates report writing text records := by
  obtain ⟨course, options, now, report, h, hfinals⟩ := exists_build_pending
  exact ⟨course, options, now, report, h, hfinals, build_agrees h⟩

section Finals

/-- The final grades in the object of an export. -/
def finals? (json : Json) : Option (List (Option Binary64)) :=
  (Json.Fields.of? ["generated_at", "course", "rows", "summary"] json).bind
    (·.required? "rows" (Json.list? Row.final?))

/-- From minus a million millions on, where the loader still reads every grade as it was. -/
def InRange (report : RosterExport) : Prop :=
  ∀ row ∈ report.rows, ∀ grade ∈ row.finalGrade, -ofNat (10 ^ 12) ≤ grade

theorem carries_finals
    (h : ∀ row ∈ report.rows, ∀ x ∈ row.finalGrade,
      x.isFinite = true ∧ Json.number? (Json.ofNumber x) = some x) :
    Json.Carries report.toJson finals? (report.rows.map (·.finalGrade)) := by
  have hwritten := Json.carries_ofString report.generatedAt.write
  have hcourse := report.course.carries_toJson
  have hrows := Json.carries_ofList (·.finalGrade) report.rows fun row hrow =>
    Row.carries_final (h row hrow)
  have hsummary : report.summary.toJson.Legible := Json.legible_ofFields (by
    simp [Json.legible_ofNat, Json.legible_ofNumber])
  refine Json.carries_ofFields ?_ (by simp) ?_
  · simp [hwritten.legible, hcourse.legible, hrows.legible, hsummary]
  · simp [Json.Fields.required?, List.lookup_cons, hrows.reads]

/--
What is read as the final grades: from the JSON document and from the records of every delimited
text, and from that text itself where it shows its records.
-/
structure CarriesFinals (report : RosterExport) : Prop where
  json : (Json.read? report.document).bind finals? = some (report.rows.map (·.finalGrade))
  csv : ∀ writing : ExportOptions, ∃ text records, Csv.write report writing = .ok text ∧
    Tabulates report writing text records ∧
    records.mapM (Csv.final? writing.separator) = some (report.rows.map (·.finalGrade))

theorem carriesFinals_of_build (h : build course options now = .ok report)
    (hrange : report.InRange) : CarriesFinals report := by
  have hgraded : ∀ row ∈ report.rows, ∀ x ∈ row.finalGrade, IsGraded x :=
    fun row hrow x hx => isGraded_of_mem_rows h hrow hx
  constructor
  · have hcarries := carries_finals fun row hrow x hx =>
      have hgrade := hgraded row hrow x hx
      ⟨hgrade.isFinalGrade.finite, (hgrade.read?_json (hrange row hrow x hx)).2⟩
    rw [document, Json.read?_pretty hcarries.legible, Option.bind_some, hcarries.reads]
  · intro writing
    obtain ⟨text, hwrite, htabulates⟩ := exists_tabulates h writing
    refine ⟨text, _, hwrite, htabulates, Json.mapM_map_eq_some fun row hrow => ?_⟩
    rw [Csv.final?, getLast?_fields, Option.bind_some]
    exact Display.final?_grade fun x hx =>
      (hgraded row hrow x hx).read?_twoPlaces (hrange row hrow x hx)

end Finals

/--
From minus a million millions on, a grade is read back from what is shown of it, with either
separator, and from its JSON. So two grades that are shown alike are one, and the delimited text
and the JSON document of an export carry the same final grades. No grade is shown as minus zero.
-/
theorem shown_reads_back :
    (∀ grade, IsGraded grade → -ofNat (10 ^ 12) ≤ grade →
      (∀ separator, Display.read? separator (Display.grade (some grade) separator) = some grade) ∧
      read? grade.json.toList = some grade ∧
      Json.number? (Json.ofNumber grade) = some grade) ∧
    (∀ first second separator, IsGraded first → IsGraded second →
      -ofNat (10 ^ 12) ≤ first → -ofNat (10 ^ 12) ≤ second →
      Display.grade (some first) separator = Display.grade (some second) separator →
      first = second) ∧
    (∀ grade, IsGraded grade → Display.grade (some grade) .dot ≠ "-0.00" ∧
      Display.grade (some grade) .comma ≠ "-0,00") ∧
    ∀ course options now report, build course options now = .ok report → report.InRange →
      CarriesFinals report := by
  refine ⟨fun grade h hlow => ⟨h.read?_grade hlow, h.read?_json hlow⟩, ?_, fun grade h => ?_,
    fun course options now report => carriesFinals_of_build⟩
  · intro first second separator hfirst hsecond hlow hlow' hsame
    have hread := hfirst.read?_grade hlow separator
    rw [hsame, hsecond.read?_grade hlow' separator] at hread
    exact (Option.some.inj hread).symm
  · exact ⟨h.grade_ne (by decide +kernel), h.grade_ne (by decide +kernel)⟩

/-- An export with the grade -7, which no other grade is shown like. -/
theorem shown_reads_back_below :
    IsGraded (-7) ∧ -ofNat (10 ^ 12) ≤ -7 ∧ Display.grade (some (-7)) .comma = "-7,00" ∧
      Display.read? .comma "-7,00" = some (-7) ∧ read? (-7 : Binary64).json.toList = some (-7) ∧
      (∀ other, IsGraded other → -ofNat (10 ^ 12) ≤ other →
        Display.grade (some other) .comma = "-7,00" → other = -7) ∧
      ∃ (course : Course) (options : ExportOptions) (now : Timestamp) (report : RosterExport),
        build course options now = .ok report ∧ report.InRange ∧
          report.rows.map (·.finalGrade) = [some (-7), none] ∧ CarriesFinals report := by
  obtain ⟨course, options, now, report, h, hfinals⟩ := exists_build_pending
  obtain ⟨hreads, halike, _, hcarries⟩ := shown_reads_back
  have hlow : -ofNat (10 ^ 12) ≤ -7 := by decide +kernel
  have hshown : Display.grade (some (-7)) .comma = "-7,00" := by decide +kernel
  have hmem : ∀ row ∈ report.rows, row.finalGrade = some (-7) ∨ row.finalGrade = none := by
    intro row hrow
    have hfinal := List.mem_map_of_mem (f := (·.finalGrade)) hrow
    simpa [hfinals] using hfinal
  have hgraded : IsGraded (-7) := by
    obtain ⟨row, hrow, hfinal⟩ :=
      List.mem_map.mp (hfinals ▸ List.mem_cons_self : some (-7) ∈ report.rows.map (·.finalGrade))
    exact isGraded_of_mem_rows h hrow hfinal
  have hrange : report.InRange := by
    intro row hrow grade hgrade
    rcases hmem row hrow with hfinal | hfinal
    · rw [hfinal, Option.mem_some] at hgrade
      exact hgrade ▸ hlow
    · rw [hfinal] at hgrade
      cases hgrade
  obtain ⟨hread, hjson, _⟩ := hreads _ hgraded hlow
  refine ⟨hgraded, hlow, hshown, hshown ▸ hread .comma, hjson, fun other hother hlow' hsame => ?_,
    course, options, now, report, h, hrange, hfinals, hcarries course options now report h hrange⟩
  exact halike other (-7) .comma hother hgraded hlow' hlow (hsame.trans hshown.symm)

end RosterExport

end FinalGrades
