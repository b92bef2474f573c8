import FinalGrades.Proofs.Course.Clean
import FinalGrades.Proofs.Course.Roster
import Mathlib

/-!
What becomes of the recorded grades of a course without warnings. Every key belongs to one sigla,
but a sigla has one grade: of several keys for it a student's entry shows one. A key is recognised
in full upper case and looked up in ASCII case only, so one with other letters may belong to a sigla
and not count for it.
-/

namespace FinalGrades.Course

variable {course : Course} {student : Student} {entry : RosterEntry} {sigla key : String}
  {value : Binary64}

theorem Clean.isAscii (h : course.Clean) (hsigla : sigla ∈ course.siglas) :
    ∀ c ∈ sigla.toList, c.toNat < 128 := by
  have hchars := (Bool.and_eq_true_iff.mp (h.siglas sigla hsigla).1).2
  exact fun c hc => toNat_lt_of_isNameChar (List.all_eq_true.mp hchars c hc)

theorem Clean.existsUnique_sigla (h : course.Clean) (hstudent : student ∈ course.students)
    (hkey : key ∈ student.grades.keys) : ∃ sigla ∈ course.siglas,
      Text.upper sigla = Text.upper key ∧
      ∀ other ∈ course.siglas, Text.upper other = Text.upper key → other = sigla := by
  obtain ⟨entry, hentry, rfl⟩ := List.mem_map.mp hkey
  obtain ⟨⟨sigla, hsigla, hupper⟩, _⟩ := h.grades student hstudent entry hentry
  refine ⟨sigla, hsigla, hupper, fun other hother heq => ?_⟩
  exact List.inj_on_of_nodup_map h.distinct hother hsigla (heq.trans hupper.symm)

/--
On a course without warnings a recorded key is recognised as one registered sigla. The student's
entry shows the grade there exactly if a key counts for the sigla that has this grade: the sigla's
own spelling, or else the first that equals it in ASCII case. So an ASCII key keeps its grade unless
the student has another one of the same letters.
-/
theorem recorded_of_no_warnings (hwarnings : course.warnings = [])
    (hentry : (student, entry) ∈ course.students.zip course.roster)
    (hrecorded : (key, value) ∈ student.grades.entries) :
    ∃ sigla ∈ course.siglas, Text.upper sigla = Text.upper key ∧
      (∀ other ∈ course.siglas, Text.upper other = Text.upper key → other = sigla) ∧
      (entry.components.get? sigla = some (some value) ↔
        ∃ counted, student.CountsFor counted sigla ∧ (counted, value) ∈ student.grades.entries) ∧
      ((∀ c ∈ key.toList, c.toNat < 128) →
        (∀ other ∈ student.grades.keys, Student.equalIgnoringCase other key = true → other = key) →
        entry.components.get? sigla = some (some value)) := by
  have hclean := warnings_eq_nil_iff.mp hwarnings
  obtain ⟨hstudent, rfl⟩ := mem_zip_roster_iff.mp hentry
  have hkey : key ∈ student.grades.keys := List.mem_map.mpr ⟨_, hrecorded, rfl⟩
  obtain ⟨sigla, hsigla, hupper, hunique⟩ := hclean.existsUnique_sigla hstudent hkey
  refine ⟨sigla, hsigla, hupper, hunique, get?_entryOf_eq_grade_iff hsigla, ?_⟩
  intro hascii halone
  refine (get?_entryOf_eq_grade_iff hsigla).mpr ⟨key, ?_, hrecorded⟩
  exact Student.countsFor_of_alone hkey
    (Student.equalIgnoringCase_of_upper hascii (hclean.isAscii hsigla) hupper.symm) halone

theorem recorded_of_no_warnings_spellings :
    ∃ (course : Course) (student : Student) (entry : RosterEntry), course.siglas = ["P1", "LAB"] ∧
      student.grades = .ofList [("P1", 8), ("lab", 7), ("p1", 4)] ∧ course.warnings = [] ∧
      (student, entry) ∈ course.students.zip course.roster ∧
      entry.components.get? "P1" = some (some 8) ∧
      ∃ sigla ∈ course.siglas, Text.upper sigla = Text.upper "lab" ∧
        entry.components.get? sigla = some (some 7) := by
  have hparse : Formula.parse "P1 / LAB" {} =
      .ok (.chain (.variable "P1") (.step .over (.variable "LAB") .done)) := by cbv
  let student : Student := { id := "a", grades := .ofList [("P1", 8), ("lab", 7), ("p1", 4)] }
  let course : Course :=
    { id := "c", name := "C", formula := "P1 / LAB"
      components := [{ sigla := "P1" }, { sigla := "LAB" }]
      students := [student] }
  have hclean : course.Clean :=
    ⟨by decide +kernel, by decide +kernel, .inr ⟨by decide +kernel, ⟨_, hparse⟩, by decide +kernel⟩,
      rfl, by decide +kernel, by decide +kernel⟩
  have hwarnings := warnings_eq_nil_iff.mpr hclean
  have hentry : (student, course.entryOf student) ∈ course.students.zip course.roster := by
    decide +kernel
  have hrecorded : ("lab", 7) ∈ student.grades.entries := by decide +kernel
  obtain ⟨sigla, hsigla, hupper, _, _, hkept⟩ :=
    recorded_of_no_warnings hwarnings hentry hrecorded
  exact ⟨course, student, _, rfl, rfl, hwarnings, hentry, by decide +kernel, sigla, hsigla, hupper,
    hkept (by simp) (by decide +kernel)⟩

/-- The long s is an S in upper case, but it is no ASCII letter. -/
theorem recorded_lost_long_s :
    ∃ (course : Course) (student : Student) (entry : RosterEntry), course.siglas = ["S1"] ∧
      student.grades = .ofList [("ſ1", 5)] ∧ course.warnings = [] ∧
      (student, entry) ∈ course.students.zip course.roster ∧
      Text.upper "S1" = Text.upper "ſ1" ∧
      ¬∃ sigla ∈ course.siglas, Text.upper sigla = Text.upper "ſ1" ∧
        entry.components.get? sigla = some (some 5) := by
  have hparse : Formula.parse "S1" {} = .ok (.variable "S1") := by cbv
  let student : Student := { id := "a", grades := .ofList [("ſ1", 5)] }
  let course : Course :=
    { id := "c", name := "C", formula := "S1", components := [{ sigla := "S1" }]
      students := [student] }
  have hclean : course.Clean :=
    ⟨by decide +kernel, by decide +kernel, .inr ⟨by decide +kernel, ⟨_, hparse⟩, by decide +kernel⟩,
      rfl, by decide +kernel, by decide +kernel⟩
  exact ⟨course, student, course.entryOf student, rfl, rfl, warnings_eq_nil_iff.mpr hclean,
    by decide +kernel, by decide +kernel, by decide +kernel⟩

end FinalGrades.Course
