import FinalGrades.Course
import FinalGrades.Proofs.Keyed
import FinalGrades.Proofs.Text.Classes

/-!
The roster of a course: every student has an entry with exactly the registered siglas, each with
the grade recorded under the key that counts for it.
-/

namespace FinalGrades

namespace Student

variable {student : Student} {key sigla : String} {value : Binary64}

theorem equalIgnoringCase_iff {a b : String} : equalIgnoringCase a b = true ↔
    a.toList.map Char.toLower = b.toList.map Char.toLower := by
  rw [equalIgnoringCase, decide_eq_true_iff]

/-- Of ASCII texts, those with the same upper case are equal but for case. -/
theorem equalIgnoringCase_of_upper {a b : String} (ha : ∀ c ∈ a.toList, c.toNat < 128)
    (hb : ∀ c ∈ b.toList, c.toNat < 128) (h : Text.upper a = Text.upper b) :
    equalIgnoringCase a b = true := by
  have hlower : ∀ {text : String}, (∀ c ∈ text.toList, c.toNat < 128) →
      text.toList.map Char.toLower = (Text.upper text).toList.map Char.toLower := by
    intro text htext
    rw [Text.toList_upper_of_ascii htext, List.map_map]
    exact List.map_congr_left fun c _ => (toLower_toUpper c).symm
  rw [equalIgnoringCase_iff, hlower ha, hlower hb, h]

/-- The recorded key whose grade a sigla gets: the sigla itself, or else the first one that equals
it but for case. -/
structure CountsFor (student : Student) (key sigla : String) : Prop where
  recorded : key ∈ student.grades.keys
  chosen : key = sigla ∨ sigla ∉ student.grades.keys ∧ equalIgnoringCase key sigla = true ∧
    ∀ other ∈ student.grades.keys, equalIgnoringCase other sigla = true → key ≤ other

theorem CountsFor.eq_of_recorded (h : student.CountsFor key sigla)
    (hsigla : sigla ∈ student.grades.keys) : key = sigla :=
  h.chosen.resolve_right fun hother => hother.1 hsigla

/-- The only recorded key that equals the sigla but for case counts for it. -/
theorem countsFor_of_alone (hkey : key ∈ student.grades.keys)
    (hequal : equalIgnoringCase key sigla = true)
    (halone : ∀ other ∈ student.grades.keys, equalIgnoringCase other key = true → other = key) :
    student.CountsFor key sigla := by
  have hsame := equalIgnoringCase_iff.mp hequal
  refine ⟨hkey, ?_⟩
  by_cases hsigla : sigla ∈ student.grades.keys
  · exact .inl (halone sigla hsigla (equalIgnoringCase_iff.mpr hsame.symm)).symm
  · refine .inr ⟨hsigla, hequal, fun other hother hlower => ?_⟩
    have hlower := equalIgnoringCase_iff.mp hlower
    obtain rfl := halone other hother (equalIgnoringCase_iff.mpr (hlower.trans hsame.symm))
    exact String.le_refl _

theorem grade?_eq_some_iff : student.grade? sigla = some value ↔
    ∃ key, student.CountsFor key sigla ∧ (key, value) ∈ student.grades.entries := by
  unfold grade?
  cases hexact : student.grades.get? sigla with
  | some grade =>
    have hentry := Keyed.get?_eq_some_iff.mp hexact
    have hrecorded : sigla ∈ student.grades.keys := List.mem_map.mpr ⟨_, hentry, rfl⟩
    constructor
    · intro h
      cases h
      exact ⟨sigla, ⟨hrecorded, .inl rfl⟩, hentry⟩
    · rintro ⟨key, hcounts, hmem⟩
      obtain rfl := hcounts.eq_of_recorded hrecorded
      exact hexact.symm.trans (Keyed.get?_eq_some_iff.mpr hmem)
  | none =>
    have hmissing : sigla ∉ student.grades.keys := Keyed.get?_eq_none_iff.mp hexact
    rw [Option.map_eq_some_iff]
    constructor
    · rintro ⟨⟨key, grade⟩, hfound, rfl⟩
      obtain ⟨hmem, hequal, hleast⟩ := Keyed.find?_eq_some_iff.mp hfound
      have hrecorded : key ∈ student.grades.keys := List.mem_map.mpr ⟨_, hmem, rfl⟩
      refine ⟨key, ⟨hrecorded, .inr ⟨hmissing, hequal, ?_⟩⟩, hmem⟩
      exact List.forall_mem_map.mpr hleast
    · rintro ⟨key, ⟨hrecorded, hchosen⟩, hmem⟩
      rcases hchosen with rfl | ⟨_, hequal, hleast⟩
      · exact absurd hrecorded hmissing
      · exact ⟨(key, value), Keyed.find?_eq_some_iff.mpr
          ⟨hmem, hequal, List.forall_mem_map.mp hleast⟩, rfl⟩

end Student

namespace Course

variable {course : Course} {student : Student} {entry : RosterEntry} {sigla : String}
  {value : Option Binary64}

/-- A student's entry of the roster. -/
def entryOf (course : Course) (student : Student) : RosterEntry :=
  { studentId := student.id
    name := student.name
    components := Keyed.ofList (course.siglas.map fun sigla => (sigla, student.grade? sigla)) }

theorem roster_eq_map (course : Course) : course.roster = course.students.map course.entryOf := rfl

theorem mem_zip_roster_iff : (student, entry) ∈ course.students.zip course.roster ↔
    student ∈ course.students ∧ course.entryOf student = entry := by
  rw [roster_eq_map, ← List.map_prod_left_eq_zip, List.mem_map]
  constructor
  · rintro ⟨_, hmem, heq⟩
    cases heq
    exact ⟨hmem, rfl⟩
  · rintro ⟨hmem, rfl⟩
    exact ⟨student, hmem, rfl⟩

theorem mem_entryOf_iff : (sigla, value) ∈ (course.entryOf student).components.entries ↔
    sigla ∈ course.siglas ∧ student.grade? sigla = value :=
  Keyed.mem_ofList_map_iff

theorem mem_grades_entryOf_iff {grade : ComponentGrade} :
    grade ∈ (course.entryOf student).grades ↔
      grade.sigla ∈ course.siglas ∧ student.grade? grade.sigla = grade.value := by
  obtain ⟨sigla, value⟩ := grade
  rw [← mem_entryOf_iff, RosterEntry.grades]
  simp

theorem get?_entryOf_iff : (course.entryOf student).components.get? sigla = some value ↔
    sigla ∈ course.siglas ∧ student.grade? sigla = value := by
  rw [Keyed.get?_eq_some_iff, mem_entryOf_iff]

theorem get?_entryOf_eq_grade_iff {grade : Binary64} (hsigla : sigla ∈ course.siglas) :
    (course.entryOf student).components.get? sigla = some (some grade) ↔
      ∃ key, student.CountsFor key sigla ∧ (key, grade) ∈ student.grades.entries := by
  rw [get?_entryOf_iff, Student.grade?_eq_some_iff]
  exact and_iff_right hsigla

end Course

end FinalGrades
