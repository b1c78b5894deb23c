-- SUMMARY: Tables of text with borders.

/-!
# Grids

`Grid.text` draws rows of cells under titles, each column as wide as its widest cell. The border has
rounded corners; a grid without rows is left open below.
-/

namespace JobEngine

/-- A column of a grid. -/
structure GridColumn where
  title : String
  /-- Cells are moved to the right. -/
  right : Bool := false

namespace Grid

/-- A cell, filled up to a width. -/
def cell (right : Bool) (width : Nat) (s : String) : String :=
  let blanks := String.ofList (List.replicate (width - s.length) ' ')
  if right then blanks ++ s else s ++ blanks

/-- A line of a border. -/
def border (left middle right : String) (widths : List Nat) : String :=
  let line (width : Nat) : String := String.ofList (List.replicate (width + 2) '─')
  left ++ middle.intercalate (widths.map line) ++ right

/-- The lines of a grid. -/
def lines (columns : List GridColumn) (rows : List (List String)) : List String :=
  let titles := columns.map (·.title)
  let widths := rows.foldl (fun ws row => ws.zipWith max (row.map String.length))
    (titles.map String.length)
  let line (cells : List String) : String :=
    let shown := (columns.zip (widths.zip cells)).map fun (c, w, s) => cell c.right w s
    "│ " ++ " │ ".intercalate shown ++ " │"
  [border "╭" "┬" "╮" widths, line titles, border "├" "┼" "┤" widths] ++ rows.map line ++
    (if rows.isEmpty then [] else [border "╰" "┴" "╯" widths])

/-- The text of a grid. -/
def text (columns : List GridColumn) (rows : List (List String)) : String :=
  "\n".intercalate (lines columns rows)

end Grid

end JobEngine
