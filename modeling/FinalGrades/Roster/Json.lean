import FinalGrades.Coverage
import FinalGrades.Json.Fields
import FinalGrades.Roster

/-!
Grades, rosters and what is computed from them as JSON.
-/

namespace FinalGrades

namespace ComponentGrade

def toJson (grade : ComponentGrade) : Json :=
  Json.ofFields [("sigla", Json.ofString grade.sigla),
    ("value", Json.ofOption Json.ofNumber grade.value)]

def ofJson? (json : Json) : Option ComponentGrade := do
  let fields ← Json.Fields.of? ["sigla", "value"] json
  return ⟨← fields.required? "sigla" Json.text?, ← fields.orNull? "value" Json.number?⟩

end ComponentGrade

namespace RosterEntry

def toJson (entry : RosterEntry) : Json :=
  Json.ofFields [("student_id", Json.ofString entry.studentId),
    ("name", Json.ofOption Json.ofString entry.name),
    ("component_values", Json.ofKeyed (Json.ofOption Json.ofNumber) entry.components)]

def ofJson? (json : Json) : Option RosterEntry := do
  let fields ← Json.Fields.of? ["student_id", "name", "component_values"] json
  return { studentId := ← fields.required? "student_id" Json.text?
           name := ← fields.withDefault? "name" none (Json.nullable? Json.text?)
           components := ← fields.withDefault? "component_values" .empty
            (Json.keyed? (Json.nullable? Json.number?)) }

end RosterEntry

namespace StudentFinal

def toJson (final : StudentFinal) : Json :=
  Json.ofFields [("student_id", Json.ofString final.studentId),
    ("final_grade", Json.ofOption Json.ofNumber final.grade)]

def ofJson? (json : Json) : Option StudentFinal := do
  let fields ← Json.Fields.of? ["student_id", "final_grade"] json
  return ⟨← fields.required? "student_id" Json.text?, ← fields.orNull? "final_grade" Json.number?⟩

end StudentFinal

namespace Summary

def toJson (summary : Summary) : Json :=
  Json.ofFields [("students", Json.ofNat summary.students),
    ("graded", Json.ofNat summary.graded), ("pending", Json.ofNat summary.pending),
    ("mean", Json.ofOption Json.ofNumber summary.mean),
    ("min", Json.ofOption Json.ofNumber summary.least),
    ("max", Json.ofOption Json.ofNumber summary.greatest)]

def ofJson? (json : Json) : Option Summary := do
  let fields ← Json.Fields.of? ["students", "graded", "pending", "mean", "min", "max"] json
  return { students := ← fields.required? "students" Json.count?
           graded := ← fields.required? "graded" Json.count?
           pending := ← fields.required? "pending" Json.count?
           mean := ← fields.orNull? "mean" Json.number?
           least := ← fields.orNull? "min" Json.number?
           greatest := ← fields.orNull? "max" Json.number? }

end Summary

namespace Coverage

def toJson (coverage : Coverage) : Json :=
  Json.ofFields [("unused_siglas", Json.ofList Json.ofString coverage.unused.keys),
    ("unknown_tokens", Json.ofList Json.ofString coverage.unknown.keys)]

def ofJson? (json : Json) : Option Coverage := do
  let fields ← Json.Fields.of? ["unused_siglas", "unknown_tokens"] json
  return ⟨setOf (← fields.required? "unused_siglas" (Json.list? Json.text?)),
    setOf (← fields.required? "unknown_tokens" (Json.list? Json.text?))⟩

end Coverage

end FinalGrades
