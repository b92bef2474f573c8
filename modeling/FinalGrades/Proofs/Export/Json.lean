import FinalGrades.Export.Json
import FinalGrades.Proofs.Export.Csv
import FinalGrades.Proofs.Files
import FinalGrades.Proofs.Json.Fields
import FinalGrades.Proofs.Timestamp
import Mathlib.Data.List.ReduceOption

/-!
Exports saved as JSON and loaded again. JSON has no undefined or infinite numbers: such a number
comes back as no number at all, and everything else comes back as it was.
-/

namespace FinalGrades

open Json (Carries)

theorem CourseSummary.carries_toJson (course : CourseSummary) :
    Carries course.toJson CourseSummary.ofJson? course := by
  have hid := Json.carries_ofString course.id
  have hname := Json.carries_ofString course.name
  have hformula := Json.carries_ofString course.formula
  have hcomponents := Json.carries_ofList (fun sigla => sigla) course.components
    fun sigla _ => Json.carries_ofString sigla
  rw [List.map_id'] at hcomponents
  refine Json.carries_ofFields ?_ (by simp) ?_
  · simp [hid.legible, hname.legible, hformula.legible, hcomponents.legible]
  · simp [Json.Fields.required?, List.lookup_cons, hid.reads, hname.reads, hformula.reads,
      hcomponents.reads]

/-- Those of the numbers that are finite are read again as they were printed. -/
def ReadBack (numbers : List Binary64) : Prop :=
  ∀ x ∈ numbers, x.isFinite = true → Json.number? (Json.ofNumber x) = some x

theorem filter_isFinite_eq_iff {number : Option Binary64} :
    number.filter Binary64.isFinite = number ↔ ∀ x ∈ number, x.isFinite = true := by
  cases number with
  | none => simp
  | some x => simp [Option.filter_some]

theorem forall_mem_reduceOption {p : Binary64 → Prop} {values : List (Option Binary64)} :
    (∀ x ∈ values.reduceOption, p x) ↔ ∀ number ∈ values, ∀ x ∈ number, p x := by
  simp only [List.reduceOption_mem_iff]
  constructor
  · intro h number hnumber x hx
    exact h x (hx ▸ hnumber)
  · intro h x hx
    exact h _ hx x rfl

theorem map_eq_self_iff {α : Type} {change : α → α} {values : List α} :
    values.map change = values ↔ ∀ value ∈ values, change value = value := by
  have h := List.map_inj_left (l := values) (f := change) (g := fun value => value)
  rwa [List.map_id'] at h

namespace Row

/-- The row without the numbers that JSON does not have. -/
def finiteOnly (row : Row) : Row :=
  { row with
    components := row.components.map (Option.filter Binary64.isFinite)
    finalGrade := row.finalGrade.filter Binary64.isFinite }

def numbers (row : Row) : List Binary64 := row.components.reduceOption ++ row.finalGrade.toList

theorem carries_toJson {row : Row} (h : ReadBack row.numbers) :
    Carries row.toJson Row.ofJson? row.finiteOnly := by
  have hid := Json.carries_ofString row.studentId
  have hname := Json.carries_ofOption row.name
  have hmem := forall_mem_reduceOption.mp fun x hx => h x (List.mem_append_left _ hx)
  have hcomponents := Json.carries_ofList (Option.filter Binary64.isFinite) row.components
    fun value hvalue => Json.carries_ofNumber value (hmem value hvalue)
  have hfinal := Json.carries_ofNumber row.finalGrade fun x hx =>
    h x (List.mem_append_right _ (Option.mem_toList.mpr hx))
  refine Json.carries_ofFields ?_ (by simp) ?_
  · simp [hid.legible, hname.legible, hcomponents.legible, hfinal.legible]
  · simp [Json.Fields.required?, Json.Fields.withDefault?, Json.Fields.orNull?, List.lookup_cons,
      hid.reads, hname.reads, hcomponents.reads, hfinal.reads, finiteOnly]

theorem finiteOnly_eq_iff {row : Row} :
    row.finiteOnly = row ↔ ∀ x ∈ row.numbers, x.isFinite = true := by
  have hcomponents : row.components.map (Option.filter Binary64.isFinite) = row.components ↔
      ∀ x ∈ row.components.reduceOption, x.isFinite = true := by
    simp only [map_eq_self_iff, filter_isFinite_eq_iff, forall_mem_reduceOption]
  have hfields : row.finiteOnly = row ↔
      row.components.map (Option.filter Binary64.isFinite) = row.components ∧
        row.finalGrade.filter Binary64.isFinite = row.finalGrade := by
    cases row
    simp [finiteOnly]
  rw [hfields, hcomponents, filter_isFinite_eq_iff]
  simp [numbers, or_imp, forall_and]

end Row

namespace Summary

/-- The summary without the numbers that JSON does not have. -/
def finiteOnly (summary : Summary) : Summary :=
  { summary with
    mean := summary.mean.filter Binary64.isFinite
    least := summary.least.filter Binary64.isFinite
    greatest := summary.greatest.filter Binary64.isFinite }

def numbers (summary : Summary) : List Binary64 :=
  [summary.mean, summary.least, summary.greatest].reduceOption

/-- The counts fit in 64 bits. -/
structure Countable (summary : Summary) : Prop where
  students : summary.students < Json.wordLimit
  graded : summary.graded < Json.wordLimit
  pending : summary.pending < Json.wordLimit

theorem carries_toJson {summary : Summary} (hcount : summary.Countable)
    (h : ReadBack summary.numbers) : Carries summary.toJson ofJson? summary.finiteOnly := by
  have hstudents := Json.carries_ofNat hcount.students
  have hgraded := Json.carries_ofNat hcount.graded
  have hpending := Json.carries_ofNat hcount.pending
  have hmem := forall_mem_reduceOption.mp h
  have hmean := Json.carries_ofNumber _ (hmem summary.mean (by simp))
  have hleast := Json.carries_ofNumber _ (hmem summary.least (by simp))
  have hgreatest := Json.carries_ofNumber _ (hmem summary.greatest (by simp))
  refine Json.carries_ofFields ?_ (by simp) ?_
  · simp [hstudents.legible, hgraded.legible, hpending.legible, hmean.legible, hleast.legible,
      hgreatest.legible]
  · simp [Json.Fields.required?, Json.Fields.orNull?, List.lookup_cons, hstudents.reads,
      hgraded.reads, hpending.reads, hmean.reads, hleast.reads, hgreatest.reads, finiteOnly]

theorem finiteOnly_eq_iff {summary : Summary} :
    summary.finiteOnly = summary ↔ ∀ x ∈ summary.numbers, x.isFinite = true := by
  have hfields : summary.finiteOnly = summary ↔
      summary.mean.filter Binary64.isFinite = summary.mean ∧
        summary.least.filter Binary64.isFinite = summary.least ∧
          summary.greatest.filter Binary64.isFinite = summary.greatest := by
    cases summary
    simp [finiteOnly]
  simp only [hfields, filter_isFinite_eq_iff, numbers, forall_mem_reduceOption,
    List.forall_mem_cons, List.not_mem_nil, IsEmpty.forall_iff, implies_true, and_true]

end Summary

namespace RosterExport

/-- The export without the numbers that JSON does not have, and nothing else changed. -/
def finiteOnly (data : RosterExport) : RosterExport :=
  { data with rows := data.rows.map Row.finiteOnly, summary := data.summary.finiteOnly }

/-- All grades and figures of an export. -/
def numbers (data : RosterExport) : List Binary64 :=
  data.rows.flatMap Row.numbers ++ data.summary.numbers

variable {data : RosterExport}

theorem carries_toJson (htime : Timestamp.read? data.generatedAt.write = some data.generatedAt)
    (hcount : data.summary.Countable) (h : ReadBack data.numbers) :
    Carries data.toJson ofJson? data.finiteOnly := by
  have hwritten := Json.carries_ofString data.generatedAt.write
  have hcourse := data.course.carries_toJson
  have hrows := Json.carries_ofList Row.finiteOnly data.rows fun row hrow =>
    Row.carries_toJson fun x hx => h x (List.mem_append_left _
      (List.mem_flatMap.mpr ⟨row, hrow, hx⟩))
  have hsummary := Summary.carries_toJson hcount fun x hx => h x (List.mem_append_right _ hx)
  refine Json.carries_ofFields ?_ (by simp) ?_
  · simp [hwritten.legible, hcourse.legible, hrows.legible, hsummary.legible]
  · simp [Json.Fields.required?, List.lookup_cons, hwritten.reads, htime, hcourse.reads,
      hrows.reads, hsummary.reads, finiteOnly]

/-- What is read from the document of an export. -/
theorem ofDocument?_document
    (htime : Timestamp.read? data.generatedAt.write = some data.generatedAt)
    (hcount : data.summary.Countable) (h : ReadBack data.numbers) :
    ofDocument? data.document = some data.finiteOnly := by
  have hdata := carries_toJson htime hcount h
  rw [ofDocument?, document, Json.read?_pretty hdata.legible, Option.bind_eq_bind, Option.bind_some,
    hdata.reads]

theorem finiteOnly_eq_iff :
    data.finiteOnly = data ↔ ∀ x ∈ data.numbers, x.isFinite = true := by
  have hfields : data.finiteOnly = data ↔
      data.rows.map Row.finiteOnly = data.rows ∧ data.summary.finiteOnly = data.summary := by
    cases data
    simp [finiteOnly]
  rw [hfields, map_eq_self_iff, Summary.finiteOnly_eq_iff]
  simp only [Row.finiteOnly_eq_iff, numbers, List.forall_mem_append, List.forall_mem_flatMap]

theorem readText_of_place {files : FileTree} {path text : String}
    {failure : FileError → DocumentError} (h : (place files path text failure).result = .ok ()) :
    (place files path text failure).files.readText path = .ok text := by
  unfold place at h ⊢
  dsimp only at h ⊢
  split at h
  next => cases h
  next hmade =>
    split at h
    next written hwritten => exact FileTree.readText_of_writeText hwritten
    next => cases h

/-- A saved file of delimited text holds the whole text of the export. -/
theorem readText_saveCsv {options : ExportOptions} {files : FileTree} {path : String}
    (h : (data.saveCsv options files path).result = .ok ()) :
    ∃ text, Csv.write data options = .ok text ∧
      (data.saveCsv options files path).files.readText path = .ok text := by
  unfold saveCsv at h
  dsimp only at h
  rw [files_saveCsv]
  split at h
  next => cases h
  next hrefused =>
    cases hwrite : Csv.write data options with
    | error error => exact absurd hwrite (hrefused () error h)
    | ok text =>
      refine ⟨text, rfl, ?_⟩
      rw [readText_of_place h, Csv.written_of_write hwrite]

/--
An export that was saved is loaded again without its undefined and infinite numbers, and so it is
the same exactly if it has none. Its time must be one that is read back, as every valid one is, and
so must its finite numbers, since the reader does not round every literal correctly.
-/
theorem loadJson_saveJson {files : FileTree} {path : String}
    (htime : Timestamp.read? data.generatedAt.write = some data.generatedAt)
    (hcount : data.summary.Countable) (h : ReadBack data.numbers)
    (hsaved : (data.saveJson files path).result = .ok ()) :
    loadJson (data.saveJson files path).files path = .ok data.finiteOnly ∧
      (loadJson (data.saveJson files path).files path = .ok data ↔
        ∀ x ∈ data.numbers, x.isFinite = true) := by
  have hload : loadJson (data.saveJson files path).files path = .ok data.finiteOnly := by
    have htext : (data.saveJson files path).files.readText path = .ok data.document :=
      readText_of_place hsaved
    rw [loadJson, htext]
    dsimp only
    rw [ofDocument?_document htime hcount h]
  refine ⟨hload, ?_⟩
  rw [hload, Except.ok.injEq]
  exact finiteOnly_eq_iff

/-- An infinite component grade and an undefined final grade beside a grade of five. -/
theorem loadJson_saveJson_infinite :
    ∃ data : RosterExport,
      data.rows = [⟨"a", none, [some 5, some (.infinite true)], some .nan⟩] ∧
      (data.saveJson {} "roster/grades.json").result = .ok () ∧
      loadJson (data.saveJson {} "roster/grades.json").files "roster/grades.json" =
        .ok { data with rows := [⟨"a", none, [some 5, none], none⟩] } ∧
      loadJson (data.saveJson {} "roster/grades.json").files "roster/grades.json" ≠ .ok data := by
  let data : RosterExport := ⟨⟨⟨2025, 1, 1⟩, 0, 0⟩, ⟨"c", "\"C\"", "P1", ["P1", "P2"]⟩,
    [⟨"a", none, [some 5, some (.infinite true)], some .nan⟩], ⟨1, 1, 0, none, some 5, none⟩⟩
  have htime : Timestamp.read? data.generatedAt.write = some data.generatedAt :=
    Timestamp.read?_write ⟨by decide, by decide, .inl (by decide)⟩
  have hread : ReadBack data.numbers := by
    have hall : ∀ x ∈ [5, .infinite true, .nan, 5], x.isFinite = true →
        Json.number? (Json.ofNumber x) = some x := by decide +kernel
    exact hall
  have hcount : data.summary.Countable := ⟨by decide, by decide, by decide⟩
  have hsaved : (data.saveJson {} "roster/grades.json").result = .ok () := by decide +kernel
  obtain ⟨hload, hsame⟩ := loadJson_saveJson htime hcount hread hsaved
  have hfinite : data.finiteOnly =
      { data with rows := [⟨"a", none, [some 5, none], none⟩] } := by decide +kernel
  refine ⟨data, rfl, hsaved, hload.trans (congrArg _ hfinite), fun heq => ?_⟩
  have hinfinite := hsame.mp heq (.infinite true) (by simp [numbers, Row.numbers, data])
  cases hinfinite

end RosterExport

end FinalGrades
