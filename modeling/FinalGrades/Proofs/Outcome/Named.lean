import FinalGrades.Proofs.Outcome.Decision

/-!
What the outcome for a student depends on: for each name in the formula the clamped grade of the
last component with that name. Other components, the order of components with different names, the
case of letters in siglas and what a grade was before it is clamped make no difference.
-/

namespace FinalGrades

section Grades

variable {grades others : List ComponentGrade} {name : String}

/-- The sigla in upper case is the name. -/
def ComponentGrade.isNamed (name : String) (grade : ComponentGrade) : Bool :=
  Text.upper grade.sigla == name

/-- The grade that counts for a name, that of the last component with it, on the scale. -/
def gradeFor? (grades : List ComponentGrade) (name : String) : Option Binary64 :=
  (grades.reverse.find? (·.isNamed name)).bind fun grade => grade.value.map Grade.clamp

theorem find?_isMissing_of_present (h : ∀ grade ∈ grades, grade.isMissing = false) :
    grades.find? ComponentGrade.isMissing = none := by
  refine List.find?_eq_none.mpr fun grade hgrade => ?_
  rw [h grade hgrade]
  decide

/-- Where all grades are there, the first binding of a name is the first component with it. -/
theorem lookup_filterMap (h : ∀ grade ∈ grades, grade.isMissing = false) :
    (grades.filterMap fun grade =>
      grade.value.map fun value => (Text.upper grade.sigla, Grade.clamp value)).lookup name =
      (grades.find? (·.isNamed name)).bind fun grade => grade.value.map Grade.clamp := by
  induction grades with
  | nil => rfl
  | cons grade rest ih =>
    obtain ⟨hgrade, hrest⟩ := List.forall_mem_cons.mp h
    obtain ⟨sigla, _ | value⟩ := grade
    · cases hgrade
    · have htail := ih hrest
      by_cases hname : Text.upper sigla = name
      · subst hname
        simp [ComponentGrade.isNamed]
      · have hother : (name == Text.upper sigla) = false := by simpa using Ne.symm hname
        simp [ComponentGrade.isNamed, hname, hother, List.lookup_cons, htail]

theorem lookup_boundGrades (h : ∀ grade ∈ grades, grade.isMissing = false) :
    (boundGrades grades).lookup name = gradeFor? grades name := by
  have hreverse : ∀ grade ∈ grades.reverse, grade.isMissing = false := by simpa using h
  rw [boundGrades, ← List.filterMap_reverse, lookup_filterMap hreverse, gradeFor?]

theorem gradeFor?_congr
    (h : others.filter (·.isNamed name) = grades.filter (·.isNamed name)) :
    gradeFor? others name = gradeFor? grades name := by
  rw [gradeFor?, gradeFor?, ← List.head?_filter, ← List.head?_filter, List.filter_reverse,
    List.filter_reverse, h]

/-- Of components with different names at most one has a given name. -/
theorem filter_isNamed_of_perm (hperm : others.Perm grades)
    (hdistinct : (grades.map fun grade => Text.upper grade.sigla).Nodup) :
    others.filter (·.isNamed name) = grades.filter (·.isNamed name) := by
  have hnamed := hperm.filter (·.isNamed name)
  have hpairwise := (List.pairwise_map.mp hdistinct).filter (·.isNamed name)
  have hall : ∀ grade ∈ grades.filter (·.isNamed name), Text.upper grade.sigla = name := by
    intro grade hgrade
    exact beq_iff_eq.mp (List.mem_filter.mp hgrade).2
  generalize grades.filter (·.isNamed name) = named at *
  match named with
  | [] => exact List.perm_nil.mp hnamed
  | [grade] => exact List.perm_singleton.mp hnamed
  | first :: second :: rest =>
    have hfirst := hall first List.mem_cons_self
    have hsecond := hall second (List.mem_cons_of_mem _ List.mem_cons_self)
    have hne := (List.pairwise_cons.mp hpairwise).1 second List.mem_cons_self
    exact absurd (hfirst.trans hsecond.symm) hne

theorem filter_isNamed_swap {front back : List ComponentGrade} {a b : ComponentGrade}
    (h : Text.upper a.sigla ≠ Text.upper b.sigla) :
    (front ++ b :: a :: back).filter (·.isNamed name) =
      (front ++ a :: b :: back).filter (·.isNamed name) := by
  by_cases ha : Text.upper a.sigla = name
  · have hb : Text.upper b.sigla ≠ name := fun hb => h (ha.trans hb.symm)
    simp [ComponentGrade.isNamed, ha, hb]
  · simp [ComponentGrade.isNamed, List.filter_cons, ha]

/-- A component with its sigla spelled in other letter cases, and its grade clamped or as it was. -/
structure ComponentGrade.Resembles (other grade : ComponentGrade) : Prop where
  sigla : other.sigla.toList.map Char.toUpper = grade.sigla.toList.map Char.toUpper
  value : other.value = grade.value ∨ other.value = grade.value.map Grade.clamp

theorem ComponentGrade.Resembles.present {other grade : ComponentGrade} (h : other.Resembles grade)
    (hgrade : grade.isMissing = false) : other.isMissing = false := by
  obtain ⟨sigla, _ | value⟩ := grade
  · cases hgrade
  · rcases h.value with hvalue | hvalue
    · rw [isMissing, hvalue]
      exact hgrade
    · have hfinite : value.isFinite = true := by simpa [isMissing] using hgrade
      simp [isMissing, hvalue, Grade.isFinite_clamp hfinite]

theorem boundGrades_of_resembles (h : List.Forall₂ ComponentGrade.Resembles others grades) :
    boundGrades others = boundGrades grades := by
  unfold boundGrades
  congr 1
  induction h with
  | nil => rfl
  | @cons other grade _ _ hhead _ ih =>
    have hsigla := Text.upper_eq_of_toUpper hhead.sigla
    have hclamped : (other.value.map fun value => (Text.upper other.sigla, Grade.clamp value)) =
        grade.value.map fun value => (Text.upper grade.sigla, Grade.clamp value) := by
      rw [hsigla]
      rcases hhead.value with hvalue | hvalue
      · rw [hvalue]
      · simp [hvalue, Function.comp_def]
    rw [List.filterMap_cons, List.filterMap_cons, hclamped, ih]

theorem present_of_resembles (h : List.Forall₂ ComponentGrade.Resembles others grades)
    (hgrades : ∀ grade ∈ grades, grade.isMissing = false) :
    ∀ grade ∈ others, grade.isMissing = false := by
  induction h with
  | nil => exact hgrades
  | cons hhead _ ih =>
    obtain ⟨hgrade, hrest⟩ := List.forall_mem_cons.mp hgrades
    exact List.forall_mem_cons.mpr ⟨hhead.present hgrade, ih hrest⟩

end Grades

namespace ParsedFormula

variable {parsed : ParsedFormula} {grades others : List ComponentGrade}

/-- The formula has a name for the component. -/
def mentions (parsed : ParsedFormula) (grade : ComponentGrade) : Bool :=
  parsed.tree.names.contains (Text.upper grade.sigla)

theorem filter_isNamed_mentions {name : String} (h : name ∈ parsed.tree.names) :
    (grades.filter parsed.mentions).filter (·.isNamed name) = grades.filter (·.isNamed name) := by
  rw [List.filter_filter]
  refine List.filter_congr fun grade _ => ?_
  cases hnamed : grade.isNamed name with
  | false => rfl
  | true =>
    have hupper : Text.upper grade.sigla = name := beq_iff_eq.mp hnamed
    simpa [mentions, hupper] using h

theorem evaluate_congr (hgrades : ∀ grade ∈ grades, grade.isMissing = false)
    (hothers : ∀ grade ∈ others, grade.isMissing = false)
    (h : ∀ name ∈ parsed.tree.names, gradeFor? others name = gradeFor? grades name) :
    parsed.evaluate others = parsed.evaluate grades := by
  have hvalue :
      parsed.tree.value (boundGrades others) = parsed.tree.value (boundGrades grades) := by
    refine parsed.tree.value_congr fun name hname => ?_
    rw [lookup_boundGrades hothers, lookup_boundGrades hgrades]
    exact h name (List.mem_eraseDups.mpr hname)
  rw [evaluate_of_present (find?_isMissing_of_present hothers),
    evaluate_of_present (find?_isMissing_of_present hgrades), hvalue]

theorem evaluate_of_resembles (hgrades : ∀ grade ∈ grades, grade.isMissing = false)
    (h : List.Forall₂ ComponentGrade.Resembles others grades) :
    parsed.evaluate others = parsed.evaluate grades := by
  have hothers := present_of_resembles h hgrades
  rw [evaluate_of_present (find?_isMissing_of_present hothers),
    evaluate_of_present (find?_isMissing_of_present hgrades), boundGrades_of_resembles h]

/--
Two students with all grades have the same outcome if, for each name in the formula, the same grade
counts for both or none does. So it changes nothing to put in or leave out components that the
formula does not mention, to reorder components with different names, to spell siglas in other
letter cases, or to put the clamped grade in place of a grade.
-/
theorem evaluate_by_named_grades (parsed : ParsedFormula) (grades : List ComponentGrade)
    (hgrades : ∀ grade ∈ grades, grade.isMissing = false) :
    (∀ others : List ComponentGrade, (∀ grade ∈ others, grade.isMissing = false) →
      ((∀ name ∈ parsed.tree.names, gradeFor? others name = gradeFor? grades name) →
        parsed.evaluate others = parsed.evaluate grades) ∧
      (others.filter parsed.mentions = grades.filter parsed.mentions →
        parsed.evaluate others = parsed.evaluate grades)) ∧
    (∀ others : List ComponentGrade, others.Perm grades →
      (grades.map fun grade => Text.upper grade.sigla).Nodup →
        parsed.evaluate others = parsed.evaluate grades) ∧
    (∀ front a b back, grades = front ++ a :: b :: back →
      Text.upper a.sigla ≠ Text.upper b.sigla →
        parsed.evaluate (front ++ b :: a :: back) = parsed.evaluate grades) ∧
    ∀ others, List.Forall₂ ComponentGrade.Resembles others grades →
      parsed.evaluate others = parsed.evaluate grades := by
  refine ⟨fun others hothers => ⟨evaluate_congr hgrades hothers, fun hmentioned => ?_⟩,
    fun others hperm hdistinct => ?_, ?_, fun others => evaluate_of_resembles hgrades⟩
  · refine evaluate_congr hgrades hothers fun name hname => gradeFor?_congr ?_
    rw [← filter_isNamed_mentions hname, hmentioned, filter_isNamed_mentions hname]
  · have hothers : ∀ grade ∈ others, grade.isMissing = false :=
      fun grade hgrade => hgrades grade (hperm.mem_iff.mp hgrade)
    exact evaluate_congr hgrades hothers fun name _ =>
      gradeFor?_congr (filter_isNamed_of_perm hperm hdistinct)
  · rintro front a b back rfl hne
    have hperm : (front ++ b :: a :: back).Perm (front ++ a :: b :: back) :=
      (List.Perm.swap a b back).append_left front
    have hothers : ∀ grade ∈ front ++ b :: a :: back, grade.isMissing = false :=
      fun grade hgrade => hgrades grade (hperm.mem_iff.mp hgrade)
    exact evaluate_congr hgrades hothers fun name _ => gradeFor?_congr (filter_isNamed_swap hne)

/-- The last of two grades counts, both grades above the scale are ten, and a third sigla is new. -/
theorem evaluate_by_named_grades_quotient :
    ∃ parsed : ParsedFormula, ofText "p1 / lab" {} = .ok parsed ∧
      (∀ grade ∈ [⟨"P1", some 12⟩, ⟨"Lab", some 4⟩], ComponentGrade.isMissing grade = false) ∧
      (∀ grade ∈ [⟨"new", some 3⟩, ⟨"LAB", some 4⟩, ⟨"p1", some 1⟩, ⟨"P1", some 11⟩],
        ComponentGrade.isMissing grade = false) ∧
      (∀ name ∈ parsed.tree.names,
        gradeFor? [⟨"new", some 3⟩, ⟨"LAB", some 4⟩, ⟨"p1", some 1⟩, ⟨"P1", some 11⟩] name =
          gradeFor? [⟨"P1", some 12⟩, ⟨"Lab", some 4⟩] name) ∧
      parsed.evaluate [⟨"new", some 3⟩, ⟨"LAB", some 4⟩, ⟨"p1", some 1⟩, ⟨"P1", some 11⟩] =
        parsed.evaluate [⟨"P1", some 12⟩, ⟨"Lab", some 4⟩] := by
  have hparse : Formula.parse "p1 / lab" {} =
      .ok (.chain (.variable "P1") (.step .over (.variable "LAB") .done)) := by cbv
  have hgrades : ∀ grade ∈ [⟨"P1", some 12⟩, ⟨"Lab", some 4⟩],
      ComponentGrade.isMissing grade = false := by decide +kernel
  have hothers : ∀ grade ∈ [⟨"new", some 3⟩, ⟨"LAB", some 4⟩, ⟨"p1", some 1⟩, ⟨"P1", some 11⟩],
      ComponentGrade.isMissing grade = false := by decide +kernel
  have hagree : ∀ name ∈ ["P1", "LAB"],
      gradeFor? [⟨"new", some 3⟩, ⟨"LAB", some 4⟩, ⟨"p1", some 1⟩, ⟨"P1", some 11⟩] name =
        gradeFor? [⟨"P1", some 12⟩, ⟨"Lab", some 4⟩] name := by decide +kernel
  exact ⟨_, ofText_of_parse hparse, hgrades, hothers, hagree,
    ((evaluate_by_named_grades _ _ hgrades).1 _ hothers).1 hagree⟩

/-- Grades are the same as doubles: the sums of two reciprocals tell the two zeros apart. -/
example :
    let reciprocal (name : String) : Formula :=
      .chain (.number 1) (.step .over (.variable name) .done)
    let parsed : ParsedFormula := ⟨"1 / (1 / a + 1 / b)", .chain (.number 1)
      (.step .over (.chain (reciprocal "A") (.step .plus (reciprocal "B") .done)) .done)⟩
    parsed.evaluate [⟨"a", some 0⟩, ⟨"b", some 0⟩] = .graded 0 ∧
      parsed.evaluate [⟨"a", some (.zero true)⟩, ⟨"b", some 0⟩] =
        .pending (.failed .nonFinite) := by
  decide +kernel

end ParsedFormula

end FinalGrades
