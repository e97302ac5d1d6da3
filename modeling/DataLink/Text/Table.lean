import DataLink.Text.Wrap

/-!
# Tables

Text tables with a header and ruled rows. Every column is as wide as its widest line, up to a
limit beyond which lines are wrapped. Line breaks inside a cell make its row taller.
-/

namespace DataLink

/-- A table of text cells. -/
structure Table where
  header : List String
  rows : List (List String)

namespace Table

/-- The limit of the width of a column, and of the rules and blanks in it. -/
def widest : Nat := 65535

/-- The width of the widest line of a cell. -/
def cellWidth (cell : String) : Nat :=
  min widest (((cell.splitOn "\n").map displayWidth).foldl max 0)

/-- The width of each column. -/
def columnWidths (t : Table) : List Nat :=
  t.rows.foldl (fun widths row => widths.zipWith max (row.map cellWidth)) (t.header.map cellWidth)

/-- The width of rules and blanks in a column: they reach over the space on both sides, as far
as the limit allows. -/
def outerWidth (width : Nat) : Nat := min widest (width + 2)

/-- A horizontal rule: its left end, its fill, its crossings, and its right end. -/
def rule (widths : List Nat) (left fill cross right : String) : String :=
  let parts := widths.map fun w => String.join (List.replicate (outerWidth w) fill)
  left ++ cross.intercalate parts ++ right

/-- The lines of one cell in a column. -/
def cellLines (width : Nat) (cell : String) : List String :=
  (cell.splitOn "\n").flatMap (wrapLine width)

/-- A line of one cell, filled up with spaces and with a space on both sides. -/
def pad (width : Nat) (line : String) : String :=
  " " ++ line ++ "".pushn ' ' (width - displayWidth line) ++ " "

/-- What stands in a column beside the lines of a taller cell. -/
def blank (width : Nat) : String := "".pushn ' ' (outerWidth width)

/-- The lines of one row. -/
def rowLines (widths : List Nat) (row : List String) : List String :=
  let cells := widths.zipWith (fun w cell => (cellLines w cell).map (pad w)) row
  let height := (cells.map List.length).foldl max 0
  (List.range height).map fun i =>
    let parts := widths.zipWith (fun w lines => lines.getD i (blank w)) cells
    "│" ++ "┆".intercalate parts ++ "│"

/-- The lines of a table. -/
def lines (t : Table) : List String :=
  let widths := t.columnWidths
  let between := rule widths "├" "╌" "┼" "┤"
  let rows := [between].intercalate (t.rows.map (rowLines widths))
  [rule widths "┌" "─" "┬" "┐"] ++ rowLines widths t.header ++ [rule widths "╞" "═" "╪" "╡"] ++
    rows ++ [rule widths "└" "─" "┴" "┘"]

/-- A table as text; every line is ended. -/
def text (t : Table) : String := String.join (t.lines.map fun line => line ++ "\n")

end Table

end DataLink
