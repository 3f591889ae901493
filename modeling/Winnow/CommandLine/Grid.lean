import Winnow.Text.Blank
import Winnow.Text.Columns

/-!
# Grids

A grid is a table drawn with plain characters: every column as wide as its
widest cell, and a rule above, below and between all rows.  A cell with line
breaks takes several lines.
-/

namespace Winnow.CommandLine.Grid

open Winnow.Text

/-- The lines of a cell. -/
def cellLines (cell : String) : List String := split '\n' cell

/-- The widest of some texts. -/
def widest (texts : List String) : Nat := (texts.map columns).foldl max 0

/-- The width of the column at a position. -/
def columnWidth (rows : List (List String)) (i : Nat) : Nat :=
  widest (rows.flatMap fun row => cellLines (row[i]?.getD ""))

/-- A text filled up with blanks to a width. -/
def fill (width : Nat) (s : String) : String :=
  s ++ String.ofList (List.replicate (width - columns s) ' ')

/-- The rule between rows. -/
def rule (widths : List Nat) : String :=
  "+" ++ String.join (widths.map fun width =>
    String.ofList (List.replicate (width + 2) '-') ++ "+")

/-- One line of a row. -/
def line (widths : List Nat) (cells : List String) : String :=
  "|" ++ String.join ((widths.zip cells).map fun (width, cell) => " " ++ fill width cell ++ " |")

/-- The lines of a row, as many as its highest cell has. -/
def rowLines (widths : List Nat) (row : List String) : List String :=
  let cells := row.map cellLines
  let height := (cells.map List.length).foldl max 0
  (List.range height).map fun i => line widths (cells.map fun lines => lines[i]?.getD "")

/-- The lines of a grid whose rows have the given number of cells; without cells it is blank. -/
def lines (width : Nat) (rows : List (List String)) : List String :=
  let widths := (List.range width).map (columnWidth rows)
  if width = 0 then [""]
  else rule widths :: rows.flatMap fun row => rowLines widths row ++ [rule widths]

/-- A grid with a header; without rows there is none. -/
def render (header : List String) (rows : List (List String)) : List String :=
  if rows.isEmpty then ["No results found."] else lines header.length (header :: rows)

end Winnow.CommandLine.Grid
