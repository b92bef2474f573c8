import FinalGrades.Text.Width

/-!
Tables drawn with plus, minus, equals and bar signs, every column as wide as its widest cell.
-/

namespace FinalGrades

/-- A header and rows of as many cells; a cell may have several lines. -/
structure Table where
  header : List String
  rows : List (List String)

namespace Table

def cellLines (cell : String) : List (List Char) := cell.toList.splitOn '\n'

/-- The widest line of a cell; an empty one still takes a column. -/
def cellWidth (cell : String) : Nat := ((cellLines cell).map Text.width).foldl max 1

/-- The width of each column. -/
def widths (table : Table) : List Nat :=
  table.rows.foldl (fun widths row => widths.zipWith max (row.map cellWidth))
    (table.header.map cellWidth)

/-- A line between rows, of one sign with another at its ends and where columns meet. -/
def rule (left line crossing right : Char) (widths : List Nat) : List Char :=
  left :: [crossing].intercalate (widths.map fun width => List.replicate (width + 2) line) ++
    [right]

def padded (width : Nat) (line : List Char) : List Char :=
  ' ' :: line ++ List.replicate (width - Text.width line) ' ' ++ [' ']

/-- One line of a row, with blanks for cells that have fewer lines. -/
def rowLine (widths : List Nat) (cells : List (List (List Char))) (index : Nat) : List Char :=
  '|' :: ['|'].intercalate (widths.zipWith (fun width lines => padded width (lines.getD index []))
    cells) ++ ['|']

def rowLines (widths : List Nat) (row : List String) : List (List Char) :=
  let cells := row.map cellLines
  (List.range ((cells.map List.length).foldl max 1)).map (rowLine widths cells)

/-- The lines of the table. -/
def lines (table : Table) : List (List Char) :=
  let widths := table.widths
  let between := rule '|' '-' '+' '|' widths
  rule '+' '-' '+' '+' widths :: rowLines widths table.header ++
    rule '+' '=' '=' '+' widths ::
    [between].intercalate (table.rows.map (rowLines widths)) ++
    [rule '+' '-' '+' '+' widths]

def render (table : Table) : String := String.ofList (['\n'].intercalate table.lines)

end Table

end FinalGrades
