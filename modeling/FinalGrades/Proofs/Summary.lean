import FinalGrades.Proofs.Number.Monotone
import FinalGrades.Proofs.Outcome.Hundredths
import FinalGrades.Proofs.Roster

/-!
The summary of a class. Only the grades enter it, and a grade is finite and not negative zero: so
the least and the greatest are grades of the class, and which ones does not depend on the order of
the students.
-/

namespace FinalGrades

open Binary64

namespace Binary64

variable {x y : Binary64}

/-- The smaller of two numbers is one of them. -/
theorem min_spec (hx : x.isFinite = true) (hy : y.isFinite = true) :
    (Binary64.min x y = x ∨ Binary64.min x y = y) ∧ Binary64.min x y ≤ x ∧
      Binary64.min x y ≤ y := by
  have hnumber := isNaN_of_isFinite hx
  have hnumber' := isNaN_of_isFinite hy
  have hlt := lt_iff hnumber' hnumber
  have hle := le_iff hnumber hnumber'
  have hge := le_iff hnumber' hnumber
  rw [Binary64.min, hnumber, if_neg Bool.false_ne_true]
  by_cases hbelow : y < x
  · rw [if_pos hbelow]
    exact ⟨.inr rfl, hge.mpr (Int.le_of_lt (hlt.mp hbelow)), le_self hnumber'⟩
  · rw [if_neg hbelow]
    exact ⟨.inl rfl, le_self hnumber, hle.mpr (Int.not_lt.mp (mt hlt.mpr hbelow))⟩

/-- The larger of two numbers is one of them. -/
theorem max_spec (hx : x.isFinite = true) (hy : y.isFinite = true) :
    (Binary64.max x y = x ∨ Binary64.max x y = y) ∧ x ≤ Binary64.max x y ∧
      y ≤ Binary64.max x y := by
  have hnumber := isNaN_of_isFinite hx
  have hnumber' := isNaN_of_isFinite hy
  have hlt := lt_iff hnumber hnumber'
  have hle := le_iff hnumber hnumber'
  have hge := le_iff hnumber' hnumber
  rw [Binary64.max, hnumber, if_neg Bool.false_ne_true]
  by_cases hbelow : x < y
  · rw [if_pos hbelow]
    exact ⟨.inr rfl, hle.mpr (Int.le_of_lt (hlt.mp hbelow)), le_self hnumber'⟩
  · rw [if_neg hbelow]
    exact ⟨.inl rfl, le_self hnumber, hge.mpr (Int.not_lt.mp (mt hlt.mpr hbelow))⟩

theorem position_eq_of_le (h : x ≤ y) (h' : y ≤ x) : x.position = y.position := by
  obtain ⟨hx, hy⟩ := isNaN_of_le h
  exact Int.le_antisymm ((le_iff hx hy).mp h) ((le_iff hy hx).mp h')

/-- Two numbers with one place are the same, unless they are zeros of different signs. -/
theorem eq_of_position (hx : x.isFinite = true) (hy : y.isFinite = true) (hx0 : x ≠ zero true)
    (hy0 : y ≠ zero true) (h : x.position = y.position) : x = y := by
  obtain ⟨_, hx'⟩ := eq_finite_position hx hx0
  obtain ⟨_, hy'⟩ := eq_finite_position hy hy0
  rw [hx', hy']
  simp only [h]

end Binary64

namespace Summary

variable {xs : List Binary64} {x : Binary64}

section Extremes

/-- A member that comes before all others: the least in the order, the greatest in its converse. -/
structure Leads (before : Binary64 → Binary64 → Prop) (xs : List Binary64) (x : Binary64) :
    Prop where
  mem : x ∈ xs
  before : ∀ y ∈ xs, before x y

/-- Of two numbers the operation takes the one that comes first. -/
structure Takes (f : Binary64 → Binary64 → Binary64) (before : Binary64 → Binary64 → Prop) :
    Prop where
  trans : ∀ x y z, before x y → before y z → before x z
  antisymm : ∀ x y, before x y → before y x → x.position = y.position
  first : ∀ x y, x.isFinite = true → y.isFinite = true →
    (f x y = x ∨ f x y = y) ∧ before (f x y) x ∧ before (f x y) y

theorem takes_min : Takes Binary64.min (· ≤ ·) :=
  ⟨fun _ _ _ => le_of_le_of_le, fun _ _ => position_eq_of_le, fun _ _ => min_spec⟩

theorem takes_max : Takes Binary64.max (fun x y => y ≤ x) :=
  ⟨fun _ _ _ h h' => le_of_le_of_le h' h, fun _ _ h h' => position_eq_of_le h' h,
    fun _ _ => max_spec⟩

variable {f : Binary64 → Binary64 → Binary64} {before : Binary64 → Binary64 → Prop}

theorem Takes.foldl (h : Takes f before) (hx : x.isFinite = true)
    (hxs : ∀ y ∈ xs, y.isFinite = true) : Leads before (x :: xs) (xs.foldl f x) := by
  induction xs generalizing x with
  | nil =>
    obtain ⟨hself, hfirst, _⟩ := h.first x x hx hx
    rw [or_self] at hself
    rw [hself] at hfirst
    exact ⟨List.mem_singleton_self x, List.forall_mem_singleton.mpr hfirst⟩
  | cons y xs ih =>
    obtain ⟨hy, hrest⟩ := List.forall_mem_cons.mp hxs
    obtain ⟨htaken, hfirst, hsecond⟩ := h.first x y hx hy
    have hfinite : (f x y).isFinite = true := by
      rcases htaken with htaken | htaken <;> rwa [htaken]
    obtain ⟨hmem, hbefore⟩ := ih hfinite hrest
    obtain ⟨hhead, hothers⟩ := List.forall_mem_cons.mp hbefore
    refine ⟨?_, ?_⟩
    · rcases List.mem_cons.mp hmem with heq | hmem
      · rw [List.foldl_cons, heq]
        rcases htaken with htaken | htaken <;> simp [htaken]
      · exact List.mem_cons_of_mem _ (List.mem_cons_of_mem _ hmem)
    · rw [List.forall_mem_cons, List.forall_mem_cons]
      exact ⟨h.trans _ _ _ hhead hfirst, h.trans _ _ _ hhead hsecond, hothers⟩

/-- Combining the members of a list takes the one that comes before all others. -/
theorem Takes.leads (h : Takes f before) (hne : xs ≠ []) (hxs : ∀ y ∈ xs, y.isFinite = true) :
    ∃ x, reduce f xs = some x ∧ Leads before xs x := by
  obtain ⟨first, rest, rfl⟩ := List.exists_cons_of_ne_nil hne
  obtain ⟨hfirst, hrest⟩ := List.forall_mem_cons.mp hxs
  exact ⟨_, rfl, h.foldl hfirst hrest⟩

/-- Among grades the first one is the same whatever their order is. -/
theorem Takes.reduce_perm {ys : List Binary64} (h : Takes f before) (hperm : ys.Perm xs)
    (hxs : ∀ y ∈ xs, IsFinalGrade y) : reduce f ys = reduce f xs := by
  by_cases hne : xs = []
  · subst hne
    rw [List.perm_nil.mp hperm]
  · have hys : ∀ y ∈ ys, IsFinalGrade y := fun y hy => hxs y (hperm.mem_iff.mp hy)
    have hne' : ys ≠ [] := fun hnil => hne (List.nil_perm.mp (hnil ▸ hperm))
    obtain ⟨x, hx, hleads⟩ := h.leads hne fun y hy => (hxs y hy).finite
    obtain ⟨x', hx', hleads'⟩ := h.leads hne' fun y hy => (hys y hy).finite
    have hgrade := hxs x hleads.mem
    have hgrade' := hys x' hleads'.mem
    have hposition := h.antisymm x' x (hleads'.before x (hperm.mem_iff.mpr hleads.mem))
      (hleads.before x' (hperm.mem_iff.mp hleads'.mem))
    rw [hx, hx', eq_of_position hgrade'.finite hgrade.finite hgrade'.not_negativeZero
      hgrade.not_negativeZero hposition]

end Extremes

section Grades

variable {finals : List StudentFinal}

/-- The grades of those that have one, in the order of the class. -/
def grades (finals : List StudentFinal) : List Binary64 := finals.filterMap (·.grade)

theorem mem_grades : x ∈ grades finals ↔ ∃ final ∈ finals, final.grade = some x :=
  List.mem_filterMap

/-- The mean of grades, rounded to hundredths. -/
def meanOf (xs : List Binary64) : Binary64 :=
  Grade.roundHalfUp (sum xs / ofNat xs.length) 2

theorem mean_ofFinals (finals : List StudentFinal) : (ofFinals finals).mean =
    if (grades finals).isEmpty then none else some (meanOf (grades finals)) := rfl

/-- Without grades there is neither a mean nor a least or greatest one. -/
theorem ofFinals_of_ungraded (h : grades finals = []) : (ofFinals finals).mean = none ∧
    (ofFinals finals).least = none ∧ (ofFinals finals).greatest = none := by
  have hleast : (ofFinals finals).least = reduce Binary64.min (grades finals) := rfl
  have hgreatest : (ofFinals finals).greatest = reduce Binary64.max (grades finals) := rfl
  rw [mean_ofFinals, hleast, hgreatest, h]
  exact ⟨rfl, rfl, rfl⟩

/-- With grades there are all three, and the ends are grades with all grades between them. -/
theorem ofFinals_of_graded (hne : grades finals ≠ [])
    (h : ∀ grade ∈ grades finals, grade.isFinite = true) :
    (ofFinals finals).mean = some (meanOf (grades finals)) ∧
      (∃ least, (ofFinals finals).least = some least ∧ Leads (· ≤ ·) (grades finals) least) ∧
      ∃ greatest, (ofFinals finals).greatest = some greatest ∧
        Leads (fun x y => y ≤ x) (grades finals) greatest := by
  refine ⟨?_, takes_min.leads hne h, takes_max.leads hne h⟩
  rw [mean_ofFinals, if_neg (mt List.isEmpty_iff.mp hne)]

/-- Each student is graded or pending. -/
theorem graded_add_pending (finals : List StudentFinal) :
    (ofFinals finals).graded + (ofFinals finals).pending = (ofFinals finals).students :=
  Nat.add_sub_cancel' (List.length_filterMap_le _ _)

end Grades

end Summary

section Finals

variable {formula : String} {roster shuffled : List RosterEntry} {limits : Limits}

theorem isGraded_of_gradeUnder {grades : List ComponentGrade} {grade : Binary64}
    (h : gradeUnder limits formula grades = some grade) : IsGraded grade := by
  cases hread : ParsedFormula.ofText formula limits with
  | error error =>
    rw [gradeUnder_of_unreadable hread] at h
    cases h
  | ok parsed =>
    rw [gradeUnder_of_readable hread] at h
    exact .ofParsed (Outcome.grade?_eq_some_iff.mp h)

theorem isFinalGrade_of_mem_grades {grade : Binary64}
    (h : grade ∈ Summary.grades (Roster.finals formula roster limits)) : IsFinalGrade grade := by
  obtain ⟨final, hfinal, hgrade⟩ := Summary.mem_grades.mp h
  rw [Roster.finals_eq_map_gradeUnder] at hfinal
  obtain ⟨entry, _, rfl⟩ := List.mem_map.mp hfinal
  exact (isGraded_of_gradeUnder hgrade).isFinalGrade

theorem finals_perm (formula : String) (limits : Limits) (h : shuffled.Perm roster) :
    (Roster.finals formula shuffled limits).Perm (Roster.finals formula roster limits) := by
  rw [Roster.finals_eq_map_gradeUnder, Roster.finals_eq_map_gradeUnder]
  exact h.map _

end Finals

end FinalGrades
