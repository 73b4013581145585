import SqlEngine.Engine

/-!
# Grids

A table as a grid of box-drawing lines. Every column is as wide as its widest cell, counted in
characters; cells that are too long are cut and end in three points.
-/
namespace SqlEngine.Grid

/-- The text of a cell with at most `limit` characters, where a limit below four counts as four. -/
def cell (limit : Nat) (value : Value) : String :=
  let text := value.display
  let most := max limit 4
  if most < text.length then Script.preview (most - 3) text ++ "..." else text

/-- The widths of the columns: the widest of the header and the cells below it. -/
def widths (columns : List String) (cells : List (List String)) : List Nat :=
  cells.foldl (fun widths row => List.zipWith (fun w c => max w c.length) widths row ++
    widths.drop row.length) (columns.map String.length)

/-- That many equal characters. -/
def repeated (c : Char) (n : Nat) : String := String.ofList (List.replicate n c)

/-- A horizontal line with the given corners and crossing. -/
def border (left crossing right : String) (widths : List Nat) : String :=
  left ++ crossing.intercalate (widths.map fun w => repeated '─' (w + 2)) ++ right

/-- A cell filled up to a width, between blanks. -/
def padded (width : Nat) (text : String) : String :=
  " " ++ text ++ repeated ' ' (width - text.length) ++ " "

/-- A line of cells. -/
def line (widths : List Nat) (cells : List String) : String :=
  "│" ++ "│".intercalate (List.zipWith padded widths cells) ++ "│"

/-- The lines of a grid. -/
def lines (limit : Nat) (l : Listing) : List String :=
  let cells := l.rows.map fun row => row.map (cell limit)
  let w := widths l.columns cells
  [border "┌" "┬" "┐" w, line w l.columns, border "├" "┼" "┤" w] ++ cells.map (line w) ++
    [border "└" "┴" "┘" w]

end SqlEngine.Grid
