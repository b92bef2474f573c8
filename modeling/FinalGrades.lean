import FinalGrades.Command.Reach
import FinalGrades.Command.Request
import FinalGrades.Command.Run
import FinalGrades.Command.Sample
import FinalGrades.Course
import FinalGrades.Course.Check
import FinalGrades.Course.Document
import FinalGrades.Course.Folder
import FinalGrades.Course.Json
import FinalGrades.Coverage
import FinalGrades.Display
import FinalGrades.Event
import FinalGrades.Export
import FinalGrades.Export.Csv
import FinalGrades.Export.Json
import FinalGrades.Files
import FinalGrades.Formula.Error
import FinalGrades.Formula.Parser
import FinalGrades.Formula.Token
import FinalGrades.Formula.Tree
import FinalGrades.Grade
import FinalGrades.Json.Fields
import FinalGrades.Json.Reader
import FinalGrades.Json.Text
import FinalGrades.Json.Value
import FinalGrades.Keyed
import FinalGrades.Main
import FinalGrades.Number.Arithmetic
import FinalGrades.Number.Binary64
import FinalGrades.Number.Decimal
import FinalGrades.Number.Notation
import FinalGrades.Number.Shortest
import FinalGrades.Outcome
import FinalGrades.Proofs.Attempt
import FinalGrades.Proofs.Command.Changes
import FinalGrades.Proofs.Command.Reached
import FinalGrades.Proofs.Course.Clean
import FinalGrades.Proofs.Course.Consistent
import FinalGrades.Proofs.Course.Folder
import FinalGrades.Proofs.Course.Grading
import FinalGrades.Proofs.Course.Predictions
import FinalGrades.Proofs.Course.Recorded
import FinalGrades.Proofs.Course.Roster
import FinalGrades.Proofs.Course.Warnings
import FinalGrades.Proofs.Coverage.Mentioned
import FinalGrades.Proofs.Coverage.Words
import FinalGrades.Proofs.Display
import FinalGrades.Proofs.Export
import FinalGrades.Proofs.Export.Agreement
import FinalGrades.Proofs.Export.Csv
import FinalGrades.Proofs.Export.Json
import FinalGrades.Proofs.Files
import FinalGrades.Proofs.Files.Below
import FinalGrades.Proofs.Files.Listing
import FinalGrades.Proofs.Files.Standing
import FinalGrades.Proofs.Formula.Appearances
import FinalGrades.Proofs.Formula.Cut
import FinalGrades.Proofs.Formula.Errors
import FinalGrades.Proofs.Formula.Grammar
import FinalGrades.Proofs.Formula.Height
import FinalGrades.Proofs.Formula.Image
import FinalGrades.Proofs.Formula.Lexing
import FinalGrades.Proofs.Formula.Limits
import FinalGrades.Proofs.Formula.Names
import FinalGrades.Proofs.Formula.Nested
import FinalGrades.Proofs.Formula.Parsing
import FinalGrades.Proofs.Formula.Pieces
import FinalGrades.Proofs.Formula.Places
import FinalGrades.Proofs.Formula.Rising
import FinalGrades.Proofs.Formula.Spelling
import FinalGrades.Proofs.Formula.Value
import FinalGrades.Proofs.Formula.Viable
import FinalGrades.Proofs.Formula.Writing
import FinalGrades.Proofs.Grade
import FinalGrades.Proofs.Json.Fields
import FinalGrades.Proofs.Json.Grade
import FinalGrades.Proofs.Json.Layout
import FinalGrades.Proofs.Json.Number
import FinalGrades.Proofs.Json.Reader
import FinalGrades.Proofs.Json.Text
import FinalGrades.Proofs.Keyed
import FinalGrades.Proofs.Number.Arithmetic
import FinalGrades.Proofs.Number.Error
import FinalGrades.Proofs.Number.Monotone
import FinalGrades.Proofs.Number.Nearest
import FinalGrades.Proofs.Number.Notation
import FinalGrades.Proofs.Number.Order
import FinalGrades.Proofs.Number.Rounding
import FinalGrades.Proofs.Number.Shortest
import FinalGrades.Proofs.Outcome
import FinalGrades.Proofs.Outcome.Decision
import FinalGrades.Proofs.Outcome.Hundredths
import FinalGrades.Proofs.Outcome.Named
import FinalGrades.Proofs.Outcome.Rising
import FinalGrades.Proofs.Roster
import FinalGrades.Proofs.Scheme
import FinalGrades.Proofs.Scheme.Average
import FinalGrades.Proofs.Scheme.Covered
import FinalGrades.Proofs.Scheme.Weights
import FinalGrades.Proofs.Settings
import FinalGrades.Proofs.Settings.Layer
import FinalGrades.Proofs.Summary
import FinalGrades.Proofs.Summary.Mean
import FinalGrades.Proofs.Text.Classes
import FinalGrades.Proofs.Text.Order
import FinalGrades.Proofs.Text.Spelled
import FinalGrades.Proofs.Timestamp
import FinalGrades.Proofs.Toml.Fields
import FinalGrades.Roster
import FinalGrades.Roster.Json
import FinalGrades.Scheme
import FinalGrades.Separator
import FinalGrades.Settings
import FinalGrades.Settings.Json
import FinalGrades.Sigla
import FinalGrades.Table
import FinalGrades.Text.Blank
import FinalGrades.Text.Case
import FinalGrades.Text.CaseTable
import FinalGrades.Text.CasedTable
import FinalGrades.Text.EmojiTable
import FinalGrades.Text.Joint
import FinalGrades.Text.Printable
import FinalGrades.Text.PrintableTable
import FinalGrades.Text.Taken
import FinalGrades.Text.Width
import FinalGrades.Text.WidthTable
import FinalGrades.Timestamp
import FinalGrades.Toml.Fields
import FinalGrades.Toml.Item
import FinalGrades.Toml.Reader
import FinalGrades.Toml.Scalar
