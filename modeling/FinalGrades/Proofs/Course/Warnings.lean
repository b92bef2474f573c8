import FinalGrades.Proofs.Course.Clean
import Mathlib.Data.List.Nodup

/-!
What a warning says of the course it is given on. The warnings are texts with names of the course in
them, so each is told from the others by a character at one of its ends that no name can change.
-/

namespace FinalGrades

namespace Warning

def noFormula : Warning :=
  { message := "no formula configured; every final grade will be pending" }

def unreadable (reason : String) : Warning :=
  { message := s!"formula does not parse ({reason}); every final grade will be pending" }

def notFinite (id key : String) : Warning :=
  { studentId := id
    message := s!"{key} is not a finite number; the final grade will be pending" }

def first (warning : Warning) : Option Char := warning.message.toList.head?

def last (warning : Warning) : Option Char := warning.message.toList.getLast?

theorem first_noFormula : noFormula.first = some 'n' := by
  simp [first, noFormula]

theorem first_unreadable (reason : String) : (unreadable reason).first = some 'f' := by
  simp [first, unreadable, toString]

theorem last_notFinite (id key : String) : (notFinite id key).last = some 'g' := by
  simp [last, notFinite, toString]

theorem unreadable_injective {a b : String} (h : unreadable a = unreadable b) : a = b := by
  have htext := congrArg (fun warning => warning.message.toList) h
  simp only [unreadable, toString, String.toList_append, List.append_right_inj,
    List.append_left_inj] at htext
  exact String.toList_injective htext

theorem notFinite_injective {id id' a b : String} (h : notFinite id a = notFinite id' b) :
    id = id' ∧ a = b := by
  have htext := congrArg (fun warning => warning.message.toList) h
  simp only [notFinite, toString, String.toList_append, List.append_left_inj] at htext
  exact ⟨Option.some.inj (congrArg Warning.studentId h), String.toList_injective htext⟩

end Warning

namespace Course

open Warning

variable {course : Course} {warning : Warning} {siglas : List String} {id : String}

theorem of_mem_siglaWarnings {sigla : String} {earlier : List String}
    (h : warning ∈ siglaWarnings sigla earlier) :
    warning.studentId = none ∧ warning.first ∈ [some 'i', some 's', some 'd'] := by
  rcases List.mem_append.mp h with h | h
  · split at h
    · obtain rfl := List.mem_singleton.mp h
      simp [first, toString]
    · split at h
      · obtain rfl := List.mem_singleton.mp h
        simp [first, toString]
      · cases h
  · split at h
    · obtain rfl := List.mem_singleton.mp h
      simp [first, toString]
    · cases h

theorem of_mem_messages {coverage : Coverage} {message : String}
    (h : message ∈ coverage.messages) :
    message.toList.head? ∈ [some 'c', some '\''] := by
  rcases List.mem_append.mp h with h | h
  · obtain ⟨sigla, _, rfl⟩ := List.mem_map.mp h
    simp [toString]
  · obtain ⟨word, _, rfl⟩ := List.mem_map.mp h
    simp [toString]

/-- The warnings on a formula: there is none, it cannot be read, or names do not fit. -/
theorem of_mem_formulaWarnings (h : warning ∈ course.formulaWarnings) :
    warning.studentId = none ∧
      (warning = noFormula ∧ Text.isBlankText course.formula = true ∨
      (∃ error, Formula.parse course.formula {} = .error error ∧
        warning = unreadable error.message) ∨
      warning.first ∈ [some 'c', some '\'']) := by
  unfold formulaWarnings at h
  split at h
  next hblank =>
    split at h
    · cases h
    · obtain rfl := List.mem_singleton.mp h
      exact ⟨rfl, .inl ⟨rfl, hblank⟩⟩
  next =>
    rcases List.mem_append.mp h with h | h
    · split at h
      next => cases h
      next error hparse =>
        obtain rfl := List.mem_singleton.mp h
        exact ⟨rfl, .inr (.inl ⟨error, hparse, rfl⟩)⟩
    · obtain ⟨message, hmessage, rfl⟩ := List.mem_map.mp h
      exact ⟨rfl, .inr (.inr (of_mem_messages hmessage))⟩

theorem of_mem_gradeWarnings {entry : String × Binary64}
    (h : warning ∈ gradeWarnings siglas id entry) :
    warning.studentId = some id ∧
      (warning = notFinite id entry.1 ∧ entry.2.isFinite = false ∨
        warning.last ∈ [some '\'', some 'd']) := by
  rcases List.mem_append.mp h with h | h
  · split at h
    · cases h
    · obtain rfl := List.mem_singleton.mp h
      exact ⟨rfl, .inr (by simp [last, toString, List.getLast?_cons])⟩
  · split at h
    next hfinite =>
      obtain rfl := List.mem_singleton.mp h
      exact ⟨rfl, .inl ⟨rfl, by simpa using hfinite⟩⟩
    next =>
      split at h
      · cases h
      · obtain rfl := List.mem_singleton.mp h
        exact ⟨rfl, .inr (by simp [last, toString, List.getLast?_cons])⟩

/-- A warning on a student is on a recorded grade, unless an earlier student has the same number. -/
theorem of_mem_studentWarnings {student : Student} {earlier : List Student}
    (h : warning ∈ studentWarnings siglas student earlier) :
    warning.studentId = some student.id ∧ ((∃ before ∈ earlier, before.id = student.id) ∨
      ∃ entry ∈ student.grades.entries, warning ∈ gradeWarnings siglas student.id entry) := by
  rcases List.mem_append.mp h with h | h
  · split at h
    next hearlier =>
      obtain rfl := List.mem_singleton.mp h
      exact ⟨rfl, .inl (by simpa using hearlier)⟩
    next => cases h
  · obtain ⟨entry, hentry, h⟩ := List.mem_flatMap.mp h
    exact ⟨(of_mem_gradeWarnings h).1, .inr ⟨entry, hentry, h⟩⟩

theorem mem_warnings_iff : warning ∈ course.warnings ↔
    (∃ entry ∈ withEarlier [] course.siglas, warning ∈ siglaWarnings entry.1 entry.2) ∨
    warning ∈ course.formulaWarnings ∨
    (course.overridesScheme = true ∧
      warning = ⟨none, "both formula and [average] are set; the explicit formula is used"⟩) ∨
    ∃ entry ∈ withEarlier [] course.students,
      warning ∈ studentWarnings course.siglas entry.1 entry.2 := by
  unfold warnings
  rw [List.mem_append, List.mem_append, List.mem_append, List.mem_flatMap, List.mem_flatMap,
    or_assoc, or_assoc, List.mem_ite_nil_right, List.mem_singleton]

theorem mem_formulaWarnings (h : warning ∈ course.warnings) (hcourse : warning.studentId = none)
    (hfirst : warning.first ∉ [some 'i', some 's', some 'd', some 'b']) :
    warning ∈ course.formulaWarnings := by
  rcases mem_warnings_iff.mp h with ⟨_, _, h⟩ | h | ⟨_, rfl⟩ | ⟨_, _, h⟩
  · refine absurd (List.mem_append_left [some 'b'] (of_mem_siglaWarnings h).2) hfirst
  · exact h
  · exact absurd (by simp [first]) hfirst
  · rw [(of_mem_studentWarnings h).1] at hcourse
    cases hcourse

/-- With distinct students, a warning on one of them is on a grade recorded for this one. -/
theorem mem_gradeWarnings (hids : (course.students.map (·.id)).Nodup)
    (h : warning ∈ course.warnings) {student : Student} (hstudent : student ∈ course.students)
    (hid : warning.studentId = some student.id) :
    ∃ entry ∈ student.grades.entries, warning ∈ gradeWarnings course.siglas student.id entry := by
  rcases mem_warnings_iff.mp h with ⟨_, _, h⟩ | h | ⟨_, rfl⟩ | ⟨⟨other, earlier⟩, hother, h⟩
  · rw [(of_mem_siglaWarnings h).1] at hid
    cases hid
  · rw [(of_mem_formulaWarnings h).1] at hid
    cases hid
  · cases hid
  · obtain ⟨hmem, hnew⟩ := (forall_withEarlier_iff (P := (· ∈ course.students))
      (R := fun before student => before.id ≠ student.id)).mpr
      ⟨fun _ hmem => hmem, List.pairwise_map.mp hids⟩ _ hother
    obtain ⟨hotherId, hgrade⟩ := of_mem_studentWarnings h
    have heq : other.id = student.id := Option.some.inj (hotherId.symm.trans hid)
    obtain rfl := List.inj_on_of_nodup_map hids hmem hstudent heq
    rcases hgrade with ⟨before, hbefore, hsame⟩ | hgrade
    · exact absurd hsame (hnew before hbefore)
    · exact hgrade

theorem isBlankText_of_noFormula (h : noFormula ∈ course.warnings) :
    Text.isBlankText course.formula = true := by
  have hformula := mem_formulaWarnings h rfl (by simp [first_noFormula])
  rcases (of_mem_formulaWarnings hformula).2 with ⟨_, hblank⟩ | ⟨error, _, heq⟩ | hfirst
  · exact hblank
  · have hfirst := first_noFormula
    rw [heq, first_unreadable] at hfirst
    cases hfirst
  · simp [first_noFormula] at hfirst

theorem parse_of_unreadable {reason : String} (h : unreadable reason ∈ course.warnings) :
    ∃ error, Formula.parse course.formula {} = .error error ∧ error.message = reason := by
  have hformula := mem_formulaWarnings h rfl (by simp [first_unreadable])
  rcases (of_mem_formulaWarnings hformula).2 with ⟨heq, _⟩ | ⟨error, hparse, heq⟩ | hfirst
  · have hfirst := first_unreadable reason
    rw [heq, first_noFormula] at hfirst
    cases hfirst
  · exact ⟨error, hparse, (unreadable_injective heq).symm⟩
  · simp [first_unreadable] at hfirst

theorem recorded_of_notFinite (hids : (course.students.map (·.id)).Nodup) {student : Student}
    (hstudent : student ∈ course.students) {key : String}
    (h : notFinite student.id key ∈ course.warnings) :
    ∃ grade, (key, grade) ∈ student.grades.entries ∧ grade.isFinite = false := by
  obtain ⟨⟨name, grade⟩, hentry, hgrade⟩ := mem_gradeWarnings hids h hstudent rfl
  rcases (of_mem_gradeWarnings hgrade).2 with ⟨heq, hfinite⟩ | hlast
  · obtain ⟨_, rfl⟩ := notFinite_injective heq
    exact ⟨grade, hentry, hfinite⟩
  · simp [last_notFinite] at hlast

end Course

end FinalGrades
