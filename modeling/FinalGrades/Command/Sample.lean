/-!
The settings file and the course file that a new user starts from.
-/

namespace FinalGrades.Sample

/-- Lines with a line feed after each. -/
def ofLines (lines : List String) : String := String.join (lines.map (· ++ "\n"))

def settings : String :=
  ofLines [
    "# gradebook configuration",
    "",
    "# Longest formula accepted, in characters",
    "max_formula_length = 4096",
    "# Deepest parenthesis nesting accepted",
    "max_nesting_depth = 64",
    "",
    "# Decimal separator for exported grades: \"dot\" or \"comma\"",
    "decimal_separator = \"dot\"",
    "# CSV delimiter; defaults to \";\" when decimal_separator is \"comma\"",
    "# csv_delimiter = \",\"",
    "",
    "# Refuse to export while any component grade is missing",
    "require_complete = true"]

/-- Where the course file is put. -/
def coursePath : String := "courses/example.toml"

def course : String :=
  ofLines [
    "[course]",
    "id = \"calc-1\"",
    "name = \"Calculus I\"",
    "",
    "[average]",
    "mode = \"weighted\"",
    "weights = [40, 30, 30]",
    "",
    "[[components]]",
    "sigla = \"P1\"",
    "name = \"Midterm exam\"",
    "",
    "[[components]]",
    "sigla = \"P2\"",
    "name = \"Final exam\"",
    "",
    "[[components]]",
    "sigla = \"T1\"",
    "name = \"Project\"",
    "description = \"Group project, graded 0 to 10\"",
    "",
    "[[students]]",
    "id = \"2024001\"",
    "name = \"Ana Souza\"",
    "grades = \x7b P1 = 8.5, P2 = 7.0, T1 = 9.0 \x7d",
    "",
    "[[students]]",
    "id = \"2024002\"",
    "name = \"Bruno Lima\"",
    "grades = \x7b P1 = 6.0, P2 = 5.0, T1 = 7.0 \x7d",
    "",
    "[[students]]",
    "id = \"2024003\"",
    "name = \"Carla Dias\"",
    "grades = \x7b P1 = 10.0, P2 = 9.5, T1 = 10.0 \x7d",
    "",
    "[[students]]",
    "id = \"2024004\"",
    "name = \"Diego Alves\"",
    "grades = \x7b P1 = 4.0, T1 = 6.0 \x7d"]

end FinalGrades.Sample
