import Fabric.Text.Blank
import Fabric.Text.Width

/-! Tables drawn in a box: a row of headings, a rule, and the rows under it. A column is as wide
as its widest line, a row as high as its highest cell. A table without rows ends at the rule. -/

namespace Fabric.Text

structure Grid where
  headings : List String
  rows : List (List String)
deriving DecidableEq, Repr

namespace Grid

def cellLines (s : String) : List (List Char) := lines s.toList

def cellWidth (s : String) : Nat := ((cellLines s).map lineWidth).foldl max 0

def columns (g : Grid) : List Nat :=
  g.rows.foldl (fun ws r => List.zipWith max ws (r.map cellWidth)) (g.headings.map cellWidth)

def rule (left middle right : String) (ws : List Nat) : String :=
  left ++ join middle (ws.map fun w => String.ofList (List.replicate (w + 2) '─')) ++ right

/-- Line `i` of a row. -/
def rowLine (ws : List Nat) (cells : List String) (i : Nat) : String :=
  "│" ++ join "│" (List.zipWith (fun w s =>
    " " ++ String.ofList (padLine w ((cellLines s)[i]?.getD [])) ++ " ") ws cells) ++ "│"

def rowLines (ws : List Nat) (cells : List String) : List String :=
  let height := (cells.map fun s => (cellLines s).length).foldl max 1
  (List.range height).map (rowLine ws cells)

def text (g : Grid) : String :=
  let ws := g.columns
  let head := rule "╭" "┬" "╮" ws :: rowLines ws g.headings ++ [rule "├" "┼" "┤" ws]
  let tail := if g.rows.isEmpty then [] else [rule "╰" "┴" "╯" ws]
  join "\n" (head ++ g.rows.flatMap (rowLines ws) ++ tail)

end Grid
end Fabric.Text
