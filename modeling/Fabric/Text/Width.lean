import Fabric.Text.Ranges
import Fabric.Text.WidthTable

/-! How many columns of a terminal a text takes. -/

namespace Fabric.Text

def charWidth (c : Char) : Nat :=
  if inRanges WidthTable.zero c then 0
  else if inRanges WidthTable.wide c then 2
  else 1

def lineWidth (cs : List Char) : Nat := cs.foldl (fun n c => n + charWidth c) 0

/-- The line with blanks behind it up to `width` columns. -/
def padLine (width : Nat) (cs : List Char) : List Char :=
  cs ++ List.replicate (width - lineWidth cs) ' '

end Fabric.Text
