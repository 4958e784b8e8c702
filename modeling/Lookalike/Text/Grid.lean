-- A grid of texts with a frame around every cell. Each column is as wide as its
-- widest text.
import Lookalike.Text.Columns

namespace Lookalike.Text.Grid

def cellLines (s : String) : List String :=
  (s.toList.splitOnP (· == '\n')).map String.ofList

def cellColumns (s : String) : Nat := ((cellLines s).map columns).foldl max 0

/-- The widths of columns, for rows of equal length. -/
def widths : List (List String) → List Nat
  | [] => []
  | [row] => row.map cellColumns
  | row :: rest => List.zipWith max (row.map cellColumns) (widths rest)

/-- A text with blanks up to a width. -/
def padded (s : String) (width : Nat) : String :=
  s ++ String.ofList (List.replicate (width - columns s) ' ')

/-- The line between rows. -/
def frame (ws : List Nat) : String :=
  "+" ++ String.join (ws.map fun w => String.ofList (List.replicate (w + 2) '-') ++ "+")

def rowLine (ws : List Nat) (cells : List String) : String :=
  "|" ++ String.join ((List.zip cells ws).map fun c => " " ++ padded c.1 c.2 ++ " |")

def rowLines (ws : List Nat) (cells : List String) : List String :=
  let height := (cells.map fun c => (cellLines c).length).foldl max 0
  (List.range height).map fun i =>
    rowLine ws (cells.map fun c => (cellLines c)[i]?.getD "")

def lines (rows : List (List String)) : List String :=
  let ws := widths rows
  frame ws :: rows.flatMap fun row => rowLines ws row ++ [frame ws]

/-- The text of a grid, without a line feed at the end. -/
def text (rows : List (List String)) : String := String.intercalate "\n" (lines rows)

end Lookalike.Text.Grid
