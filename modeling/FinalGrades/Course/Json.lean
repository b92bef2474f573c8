import FinalGrades.Course
import FinalGrades.Json.Fields

/-!
Courses and their parts as JSON.
-/

namespace FinalGrades

namespace Averaging

def toJson (averaging : Averaging) : Json := Json.ofString averaging.name

def ofJson? : Json → Option Averaging :=
  Json.choice? [("simple", .simple), ("weighted", .weighted)]

end Averaging

namespace Scheme

def toJson (scheme : Scheme) : Json :=
  Json.ofFields [("mode", scheme.averaging.toJson),
    ("weights", Json.ofOption (Json.ofList Json.ofNumber) scheme.weights)]

def ofJson? (json : Json) : Option Scheme := do
  let fields ← Json.Fields.of? ["mode", "weights"] json
  return { averaging := ← fields.required? "mode" Averaging.ofJson?
           weights := ← fields.withDefault? "weights" none
            (Json.nullable? (Json.list? Json.number?)) }

end Scheme

namespace Component

def toJson (component : Component) : Json :=
  Json.ofFields [("sigla", Json.ofString component.sigla), ("name", Json.ofString component.name),
    ("description", Json.ofOption Json.ofString component.description)]

def ofJson? (json : Json) : Option Component := do
  let fields ← Json.Fields.of? ["sigla", "name", "description"] json
  return { sigla := ← fields.required? "sigla" Json.text?
           name := ← fields.withDefault? "name" "" Json.text?
           description := ← fields.withDefault? "description" none (Json.nullable? Json.text?) }

end Component

namespace Student

def toJson (student : Student) : Json :=
  Json.ofFields [("id", Json.ofString student.id),
    ("name", Json.ofOption Json.ofString student.name),
    ("grades", Json.ofKeyed Json.ofNumber student.grades)]

def ofJson? (json : Json) : Option Student := do
  let fields ← Json.Fields.of? ["id", "name", "grades"] json
  return { id := ← fields.required? "id" Json.text?
           name := ← fields.withDefault? "name" none (Json.nullable? Json.text?)
           grades := ← fields.withDefault? "grades" .empty (Json.keyed? Json.number?) }

end Student

namespace Course

def toJson (course : Course) : Json :=
  Json.ofFields [("id", Json.ofString course.id), ("name", Json.ofString course.name),
    ("formula", Json.ofString course.formula),
    ("average", Json.ofOption Scheme.toJson course.scheme),
    ("formula_overrides_scheme", .boolean course.overridesScheme),
    ("components", Json.ofList Component.toJson course.components),
    ("students", Json.ofList Student.toJson course.students)]

def ofJson? (json : Json) : Option Course := do
  let fields ← Json.Fields.of? ["id", "name", "formula", "average", "formula_overrides_scheme",
    "components", "students"] json
  return { id := ← fields.required? "id" Json.text?
           name := ← fields.required? "name" Json.text?
           formula := ← fields.required? "formula" Json.text?
           scheme := ← fields.withDefault? "average" none (Json.nullable? Scheme.ofJson?)
           overridesScheme :=
            ← fields.withDefault? "formula_overrides_scheme" false Json.boolean?
           components := ← fields.required? "components" (Json.list? Component.ofJson?)
           students := ← fields.required? "students" (Json.list? Student.ofJson?) }

end Course

end FinalGrades
