/-
Tables in a terminal.

A table has a frame with rounded corners, a line below its header, and cells that are aligned to
the left with a blank on both sides.  A line break in a cell makes its row as many lines high.

Main definitions:

* `Table.render` — the text of a table;
* `candidateTable`, `statsTable` — the tables of a report.
-/

import ExportSurface.Analysis
import ExportSurface.File.Path
import ExportSurface.Terminal.Columns

set_option autoImplicit false

namespace ExportSurface

namespace Table

/-- A cell: its lines. -/
abbrev Cell := List (List Char)

/-- The cell of a text. -/
def cell (text : String) : Cell :=
  let (first, others) := Path.splitAt '\n' text.toList
  first :: others

/-- The columns of the widest line of a cell. -/
def cellWidth (c : Cell) : Nat := (c.map Columns.ofText).foldl max 0

/-- The width of each column of a table; every row has a cell for each. -/
def columnWidths (rows : List (List Cell)) : List Nat :=
  match rows with
  | [] => []
  | first :: others =>
      others.foldl (fun widths row => List.zipWith max widths (row.map cellWidth))
        (first.map cellWidth)

/-- A line of the frame. -/
def rule (left middle right : String) (widths : List Nat) : String :=
  left ++ middle.intercalate (widths.map fun w => "".pushn '─' (w + 2)) ++ right

/-- One line of a cell, with blanks up to the width of its column. -/
def padded (width : Nat) (line : List Char) : String :=
  " " ++ String.ofList line ++ "".pushn ' ' (width - Columns.ofText line + 1)

/-- The lines of a row. -/
def rowLines (widths : List Nat) (row : List Cell) : List String :=
  let height := (row.map List.length).foldl max 0
  (List.range height).map fun i =>
    let cells := List.zipWith (fun w cell => padded w (cell[i]?.getD [])) widths row
    "│" ++ "│".intercalate cells ++ "│"

/-- The text of a table with a header; a table without rows has none. -/
def render (header : List String) (rows : List (List String)) : String :=
  if rows.isEmpty then ""
  else
    let header := header.map cell
    let rows := rows.map (·.map cell)
    let widths := columnWidths (header :: rows)
    "\n".intercalate <|
      [rule "╭" "┬" "╮" widths] ++ rowLines widths header ++ [rule "├" "┼" "┤" widths] ++
        rows.flatMap (rowLines widths) ++ [rule "╰" "┴" "╯" widths]

end Table

/-- A candidate as a row of a table: name, kind, line, and whether it is exported. -/
def candidateRow (name kind : String) (line : Nat) (exported : Bool) : List String :=
  [name, kind, toString line, if exported then "yes" else "no"]

/-- The table of candidates, one row for each. -/
def candidateTable (rows : List (List String)) : String :=
  Table.render ["Name", "Kind", "Line", "Exported"] rows

/-- The table of the candidates of a report. -/
def Report.table (r : Report) : String :=
  candidateTable <| r.candidates.map fun s =>
    candidateRow s.candidate.name s.candidate.kind.text s.candidate.line s.exported

/-- A table of measured values under their names. -/
def statsTable (rows : List (String × String)) : String :=
  Table.render ["Metric", "Value"] (rows.map fun (label, value) => [label, value])

end ExportSurface
