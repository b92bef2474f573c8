import FinalGrades.Proofs.Course.Clean
import FinalGrades.Proofs.Coverage.Mentioned
import FinalGrades.Proofs.Formula.Limits
import FinalGrades.Proofs.Grade
import FinalGrades.Proofs.Number.Nearest
import Mathlib

/-!
The courses on which there are no warnings are those whose parts fit each other: the siglas can be
written in a formula and are told apart in upper case, they are exactly the names in the formula,
and every recorded grade is one on the scale for one of them.
-/

namespace FinalGrades

open Lexeme

section Siglas

variable {sigla : String}

/-- A sigla without a digit at its front is a name, as formulas have them. -/
theorem isName_iff : IsName sigla.toList ↔
    isValidSigla sigla = true ∧ Course.startsWithDigit sigla = false := by
  have hstart : ∀ {c : Char}, isNameStart c = true ↔ isNameChar c = true ∧ c.isDigit = false := by
    intro c
    constructor
    · intro hc
      have hliteral := (isNameStart_alone hc).2.2
      exact ⟨isNameChar_of_isNameStart hc, (Bool.or_eq_false_iff.mp hliteral).1⟩
    · rintro ⟨hc, hdigit⟩
      simpa [isNameChar, isNameStart, Char.isAlphanum, hdigit] using hc
  unfold isValidSigla Course.startsWithDigit
  constructor
  · rintro ⟨hchars, c, hc, hfirst⟩
    have hall : sigla.toList.all isSiglaChar = true := List.all_eq_true.mpr hchars
    rw [Option.mem_def.mp hc, hall]
    exact ⟨by simpa using List.ne_nil_of_mem (List.mem_of_mem_head? hc), (hstart.mp hfirst).2⟩
  · rintro ⟨hvalid, hdigit⟩
    obtain ⟨hne, hall⟩ := Bool.and_eq_true_iff.mp hvalid
    have hchars := List.all_eq_true.mp hall
    cases htext : sigla.toList with
    | nil => simp [htext] at hne
    | cons c rest =>
      rw [htext] at hchars hdigit
      exact ⟨hchars, c, rfl, hstart.mpr ⟨hchars c List.mem_cons_self, hdigit⟩⟩

theorem isNumeral_upper (h : IsName sigla.toList) :
    Coverage.isNumeral (Text.upper sigla) = false := by
  rw [← String.ofList_toList (s := sigla), upper_of_isNameChar h.chars]
  exact isNumeral_of_isName h

end Siglas

namespace Coverage

variable {formula : String} {tree : Formula} {siglas : List String}

theorem messages_eq_nil_iff {coverage : Coverage} : coverage.messages = [] ↔
    (∀ sigla, sigla ∉ coverage.unused.keys) ∧ ∀ word, word ∉ coverage.unknown.keys := by
  rw [messages, List.append_eq_nil_iff, List.map_eq_nil_iff, List.map_eq_nil_iff,
    List.eq_nil_iff_forall_not_mem, List.eq_nil_iff_forall_not_mem]

/-- Siglas that are names are covered exactly if the formula has these names and no other. -/
theorem messages_of_parse (h : Formula.parse formula {} = .ok tree)
    (hsiglas : ∀ sigla ∈ siglas, IsName sigla.toList) :
    (ofFormula formula siglas).messages = [] ↔
      ∀ name, name ∈ tree.names ↔ ∃ sigla ∈ siglas, Text.upper sigla = name := by
  have hnumeral : ∀ sigla ∈ siglas, isNumeral (Text.upper sigla) = false :=
    fun sigla hsigla => isNumeral_upper (hsiglas sigla hsigla)
  rw [messages_eq_nil_iff]
  constructor
  · rintro ⟨hunused, hunknown⟩ name
    constructor
    · intro hname
      by_contra hregistered
      exact hunknown name ((mem_unknown_of_parse h).mpr
        ⟨hname, fun sigla hsigla heq => hregistered ⟨sigla, hsigla, heq⟩⟩)
    · rintro ⟨sigla, hsigla, rfl⟩
      by_contra hname
      exact hunused sigla ((mem_unused_of_parse h hnumeral).mpr ⟨hsigla, hname⟩)
  · intro hnames
    constructor
    · intro sigla hmem
      obtain ⟨hsigla, hname⟩ := (mem_unused_of_parse h hnumeral).mp hmem
      exact hname ((hnames _).mpr ⟨sigla, hsigla, rfl⟩)
    · intro word hmem
      obtain ⟨hname, hregistered⟩ := (mem_unknown_of_parse h).mp hmem
      obtain ⟨sigla, hsigla, heq⟩ := (hnames word).mp hname
      exact hregistered sigla hsigla heq

end Coverage

namespace Course

variable {course : Course}

/-- A grade is on the scale if its exact value is. -/
theorem on_scale_iff {grade : Binary64} (h : grade.isFinite = true) :
    (Grade.lowest ≤ grade ∧ grade ≤ Grade.highest) ↔ 0 ≤ grade.toRat ∧ grade.toRat ≤ 10 := by
  have hunit : (0 : ℚ) < Binary64.unit := Nat.cast_pos.mpr Binary64.unit_pos
  have hnan := Binary64.isNaN_of_isFinite h
  rw [Binary64.le_iff (Binary64.isNaN_of_isFinite Grade.scale_ends.1.1) hnan,
    Binary64.le_iff hnan (Binary64.isNaN_of_isFinite Grade.isFinite_highest),
    Grade.position_lowest, Grade.position_highest, Binary64.toRat, div_le_iff₀ hunit,
    le_div_iff₀ hunit, zero_mul]
  generalize Binary64.unit = units at *
  norm_cast

/-- A course whose siglas, formula, students and grades fit each other. -/
structure Consistent (course : Course) : Prop where
  siglas : ∀ sigla ∈ course.siglas, IsName sigla.toList
  distinct : course.siglas.Pairwise fun a b => Text.upper a ≠ Text.upper b
  formula : (Text.isBlankText course.formula = true ∧ course.components = []) ∨
    ∃ tree, Formula.parse course.formula {} = .ok tree ∧
      ∀ name, name ∈ tree.names ↔ ∃ sigla ∈ course.siglas, Text.upper sigla = name
  scheme : course.overridesScheme = false
  students : course.students.Pairwise fun a b => a.id ≠ b.id
  grades : ∀ student ∈ course.students, ∀ key grade, (key, grade) ∈ student.grades.entries →
    (∃ sigla ∈ course.siglas, Text.upper sigla = Text.upper key) ∧
      grade.isFinite = true ∧ 0 ≤ grade.toRat ∧ grade.toRat ≤ 10

theorem Clean.names (h : course.Clean) : ∀ sigla ∈ course.siglas, IsName sigla.toList :=
  fun sigla hsigla => isName_iff.mpr (h.siglas sigla hsigla)

theorem Clean.consistent (h : course.Clean) : course.Consistent where
  siglas := h.names
  distinct := List.pairwise_map.mp h.distinct
  formula := by
    refine h.formula.imp_right ?_
    rintro ⟨_, ⟨tree, hparse⟩, hmessages⟩
    exact ⟨tree, hparse, (Coverage.messages_of_parse hparse h.names).mp hmessages⟩
  scheme := h.scheme
  students := List.pairwise_map.mp h.students
  grades student hstudent key grade hmem := by
    obtain ⟨hregistered, hfinite, hscale⟩ := h.grades student hstudent _ hmem
    exact ⟨hregistered, hfinite, (on_scale_iff hfinite).mp hscale⟩

theorem Consistent.clean (h : course.Consistent) : course.Clean where
  siglas sigla hsigla := isName_iff.mp (h.siglas sigla hsigla)
  distinct := List.pairwise_map.mpr h.distinct
  formula := by
    refine h.formula.imp_right ?_
    rintro ⟨tree, hparse, hnames⟩
    exact ⟨Formula.isBlankText_of_parse hparse, ⟨tree, hparse⟩,
      (Coverage.messages_of_parse hparse h.siglas).mpr hnames⟩
  scheme := h.scheme
  students := List.pairwise_map.mpr h.students
  grades student hstudent entry hmem := by
    obtain ⟨hregistered, hfinite, hscale⟩ := h.grades student hstudent entry.1 entry.2 hmem
    exact ⟨hregistered, hfinite, (on_scale_iff hfinite).mpr hscale⟩

/-- There are no warnings on exactly the courses whose parts fit each other. -/
theorem no_warnings_iff_consistent (course : Course) :
    course.warnings = [] ↔ course.Consistent :=
  warnings_eq_nil_iff.trans ⟨Clean.consistent, Consistent.clean⟩

end Course

end FinalGrades
