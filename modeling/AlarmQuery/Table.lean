import AlarmQuery.Text.Width

/-!
# Tables

A table is a list of rows of cells.  Every column but the last is as wide as its widest cell, and
two spaces stand between columns.
-/

namespace AlarmQuery

namespace Table

/-- A cell filled up with spaces to a number of columns. -/
def padded (width : Nat) (cell : Text) : Text :=
  cell ++ List.replicate (width - cell.width) ' '

/-- The widths of the cells of two rows where the wider of both counts. -/
def widen (row : List Text) (widths : List Nat) : List Nat :=
  List.zipWithAll (fun cell width => max (Text.width (cell.getD [])) (width.getD 0)) row widths

/-- The width of every column. -/
def widths (rows : List (List Text)) : List Nat := rows.foldr widen []

/-- A row in columns of given widths.  The last cell is not filled up. -/
def rowText : (widths : List Nat) → (row : List Text) → Text
  | _, [] => []
  | _, [cell] => cell
  | [], cell :: others => cell ++ ' ' :: ' ' :: rowText [] others
  | width :: widths, cell :: others => padded width cell ++ ' ' :: ' ' :: rowText widths others

/-- A table, with each row on a line of its own. -/
def text (rows : List (List Text)) : Text :=
  rows.flatMap fun row => rowText (widths rows) row ++ ['\n']

end Table

end AlarmQuery
