import D0L.Report

namespace D0L

/-!
# Layouts of a report

The same cells are laid out either as comma separated values or as a table with a frame. Without
rows there is no text at all.

* `Report.header`, `Row.cells` — the cells of a report.
* `Report.csv` — one line for each row, with commas between the cells.
* `Report.table` — a frame with rounded corners; every column is as wide as its widest cell.
-/

/-- The cells of a row. -/
def Row.cells (r : Row) : List Text :=
  [r.generation, r.length, r.replaced, r.kept].map Numeral.write

namespace Report

/-- The names of the columns. -/
def header : List Text :=
  ["Generation".toList, "Length".toList, "Rewritten".toList, "Passed Through".toList]

/-- All lines of cells, the names of the columns first. -/
def cells (rows : List Row) : List (List Text) := header :: rows.map Row.cells

/-- Texts with a separator between them. -/
def separated (separator : Text) (parts : List Text) : Text :=
  (parts.intersperse separator).flatten

/-! ### Comma separated values -/

/-- A line of cells with commas between them. -/
def csvLine (line : List Text) : Text := separated [','] line ++ ['\n']

/-- The report as comma separated values. -/
def csv (rows : List Row) : Text :=
  if rows = [] then [] else (cells rows).flatMap csvLine

/-! ### Tables -/

/-- The greatest length of a text at each place of some lines. -/
def widths (lines : List (List Text)) : List Nat :=
  lines.foldr (fun line ws => List.zipWith max (line.map List.length) ws) (header.map fun _ => 0)

/-- A cell with blanks around it that fill its column. -/
def padded (width : Nat) (cell : Text) : Text :=
  ' ' :: cell ++ List.replicate (width - cell.length) ' ' ++ [' ']

/-- A line of cells between the bars of the frame. -/
def tableLine (ws : List Nat) (line : List Text) : Text :=
  '│' :: separated ['│'] (List.zipWith padded ws line) ++ ['│']

/-- A line of the frame, given its corners and what stands between the columns. -/
def rule (ws : List Nat) (left middle right : Char) : Text :=
  left :: separated [middle] (ws.map fun w => List.replicate (w + 2) '─') ++ [right]

/-- The lines of a table around some rows. -/
def tableLines (rows : List Row) : List Text :=
  let ws := widths (cells rows)
  rule ws '╭' '┬' '╮' :: tableLine ws header :: rule ws '├' '┼' '┤'
    :: rows.map (fun r => tableLine ws r.cells) ++ [rule ws '╰' '┴' '╯']

/-- The report as a table. -/
def table (rows : List Row) : Text :=
  if rows = [] then [] else separated ['\n'] (tableLines rows)

end Report

end D0L
