import TaggedOptions.Text.Columns

/-! # Ruled tables

A table is a heading row and rows of cells, drawn with `+`, `-`, `=` and `|`.  Each column is as
wide as its widest line; a cell with line breaks takes several lines of its row.  A rule of equal
signs separates the heading from the rows, and a dashed rule separates two rows.
-/

namespace TaggedOptions.Text

structure Grid where
  heading : List String
  rows : List (List String)
  deriving Repr

namespace Grid

def cellLines (cell : String) : List String :=
  (cell.toList.splitOn '\n').map String.ofList

def cellWidth (cell : String) : Nat :=
  ((cellLines cell).map columns).foldl max 0

def widen : List Nat → List Nat → List Nat
  | w :: ws, v :: vs => max w v :: widen ws vs
  | ws, [] => ws
  | [], vs => vs

def widths (g : Grid) : List Nat :=
  (g.heading :: g.rows).foldl (fun ws row => widen ws (row.map cellWidth)) []

def run (n : Nat) (c : Char) : String := String.ofList (List.replicate n c)

/-- A line of a cell with a blank on both sides, filled up to the width of its column. -/
def padded (width : Nat) (line : String) : String :=
  " " ++ line ++ run (width - columns line) ' ' ++ " "

def rowLine (ws : List Nat) (row : List String) (n : Nat) : String :=
  let cells := (ws.zip row).map fun (w, cell) => padded w (((cellLines cell)[n]?).getD "")
  "|" ++ "|".intercalate cells ++ "|"

/-- The text lines of a row: as many as its tallest cell has. -/
def rowLines (ws : List Nat) (row : List String) : List String :=
  let height := (row.map fun cell => (cellLines cell).length).foldl max 1
  (List.range height).map (rowLine ws row)

def rule (ws : List Nat) (edge fill crossing : String) : String :=
  let dashes := ws.map fun w => "".intercalate (List.replicate (w + 2) fill)
  edge ++ crossing.intercalate dashes ++ edge

def lines (g : Grid) : List String :=
  let ws := g.widths
  let border := rule ws "+" "-" "+"
  let between := rule ws "|" "-" "+"
  let body := [between].intercalate (g.rows.map (rowLines ws))
  [border] ++ rowLines ws g.heading ++ [rule ws "+" "=" "="] ++ body ++ [border]

def render (g : Grid) : String := "\n".intercalate g.lines

end Grid

end TaggedOptions.Text
