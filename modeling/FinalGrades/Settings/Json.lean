import FinalGrades.Json.Fields
import FinalGrades.Settings

/-!
Settings as JSON.
-/

namespace FinalGrades.Settings

def toJson (settings : Settings) : Json :=
  Json.ofFields [("max_formula_length", Json.ofNat settings.maxFormulaLength),
    ("max_nesting_depth", Json.ofNat settings.maxNestingDepth),
    ("decimal_separator", Json.ofString settings.separator.name),
    ("csv_delimiter", Json.ofOption (fun c => Json.ofString (String.singleton c))
      settings.delimiter),
    ("require_complete", .boolean settings.requireComplete)]

def ofJson? (json : Json) : Option Settings := do
  let fields ← Json.Fields.of? ["max_formula_length", "max_nesting_depth", "decimal_separator",
    "csv_delimiter", "require_complete"] json
  let base : Settings := {}
  return {
    maxFormulaLength :=
      ← fields.withDefault? "max_formula_length" base.maxFormulaLength Json.count?
    maxNestingDepth := ← fields.withDefault? "max_nesting_depth" base.maxNestingDepth Json.count?
    separator := ← fields.withDefault? "decimal_separator" base.separator
      (Json.choice? [("dot", .dot), ("comma", .comma)])
    delimiter := ← fields.withDefault? "csv_delimiter" base.delimiter
      (Json.nullable? Json.character?)
    requireComplete := ← fields.withDefault? "require_complete" base.requireComplete Json.boolean? }

end FinalGrades.Settings
