import FinalGrades.Proofs.Outcome
import FinalGrades.Roster
import Mathlib.Data.List.Perm.Basic

/-!
The final grades of a class: reading the formula once gives each student the grade that the formula
gives that student alone. So neither the other students nor their order matter.
-/

namespace FinalGrades.Roster

theorem finals_eq_map_gradeUnder (formula : String) (roster : List RosterEntry) (limits : Limits) :
    finals formula roster limits = roster.map fun entry =>
      ⟨entry.studentId, gradeUnder limits formula entry.grades⟩ := by
  unfold finals
  split
  next hblank =>
    apply List.map_congr_left
    intro entry hentry
    rw [gradeUnder_of_blank hblank]
  next =>
    cases h : ParsedFormula.ofText formula limits with
    | ok parsed =>
      apply List.map_congr_left
      intro entry hentry
      rw [gradeUnder_of_readable h]
    | error error =>
      apply List.map_congr_left
      intro entry hentry
      rw [gradeUnder_of_unreadable h]

theorem finals_of_parse {formula : String} {limits : Limits} {tree : Formula}
    (h : Formula.parse formula limits = .ok tree) (roster : List RosterEntry) :
    finals formula roster limits = finalsOf ⟨formula, tree⟩ roster := by
  rw [finals_eq_map_gradeUnder]
  refine List.map_congr_left fun entry _ => ?_
  rw [gradeUnder_of_readable (ParsedFormula.ofText_of_parse h)]

theorem finals_eq_map (formula : String) (roster : List RosterEntry) :
    finals formula roster {} = roster.map fun entry =>
      ⟨entry.studentId, (evaluate formula entry.grades).grade?⟩ := by
  rw [finals_eq_map_gradeUnder]
  apply List.map_congr_left
  intro entry hentry
  rw [grade?_evaluate]

theorem zip_finals (formula : String) (roster : List RosterEntry) :
    roster.zip (finals formula roster {}) = roster.map fun entry =>
      (entry, ⟨entry.studentId, (evaluate formula entry.grades).grade?⟩) := by
  rw [finals_eq_map, List.map_prod_left_eq_zip]

/--
Every student of a class, in the order of the roster, has the grade that the formula gives the
student alone. Classes can be split, and a change of their order pairs no student with another
grade.
-/
theorem finals_eq_each_alone (formula : String) (roster : List RosterEntry) :
    finals formula roster {} = roster.map (fun entry =>
        ⟨entry.studentId, (evaluate formula entry.grades).grade?⟩) ∧
      (∀ more, finals formula (roster ++ more) {} =
        finals formula roster {} ++ finals formula more {}) ∧
      ∀ shuffled : List RosterEntry, shuffled.Perm roster →
        (shuffled.zip (finals formula shuffled {})).Perm
          (roster.zip (finals formula roster {})) := by
  refine ⟨finals_eq_map formula roster, fun more => ?_, fun shuffled hperm => ?_⟩
  · rw [finals_eq_map, finals_eq_map, finals_eq_map, List.map_append]
  · rw [zip_finals, zip_finals]
    exact hperm.map _

theorem finals_eq_each_alone_reversed :
    ∃ roster : List RosterEntry,
      roster = [⟨"1", none, .ofList [("P1", some 7)]⟩, ⟨"2", none, .ofList [("P1", none)]⟩] ∧
        roster.reverse.Perm roster ∧
        (roster.reverse.zip (finals "p1 - p1 / p1" roster.reverse {})).Perm
          (roster.zip (finals "p1 - p1 / p1" roster {})) := by
  refine ⟨_, rfl, List.reverse_perm _, ?_⟩
  exact (finals_eq_each_alone _ _).2.2 _ (List.reverse_perm _)

end FinalGrades.Roster
