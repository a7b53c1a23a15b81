/-! Blank characters and the cuts made at them. A blank is a character with the Unicode
`White_Space` property; trimming, word splitting and line splitting all use this one class. -/

namespace Fabric.Text

def isBlank (c : Char) : Bool :=
  let n := c.toNat
  (0x9 ≤ n && n ≤ 0xD) || n == 0x20 || n == 0x85 || n == 0xA0 || n == 0x1680 ||
  (0x2000 ≤ n && n ≤ 0x200A) || n == 0x2028 || n == 0x2029 || n == 0x202F || n == 0x205F ||
  n == 0x3000

def trimStart (cs : List Char) : List Char := cs.dropWhile isBlank

def trimEnd (cs : List Char) : List Char := (cs.reverse.dropWhile isBlank).reverse

def trim (cs : List Char) : List Char := trimEnd (trimStart cs)

/-- The pieces between the separators; one more than there are separators. -/
def splitAt {α : Type} (p : α → Bool) : List α → List (List α)
  | [] => [[]]
  | c :: r =>
    match splitAt p r with
    | [] => [[]]
    | w :: ws => if p c then [] :: w :: ws else (c :: w) :: ws

/-- Maximal runs without a blank. -/
def words (cs : List Char) : List (List Char) :=
  (splitAt isBlank cs).filter (fun w => !w.isEmpty)

def lines (cs : List Char) : List (List Char) := splitAt (· == '\n') cs

/-- The text before and after the first separator. -/
def cut? {α : Type} (p : α → Bool) : List α → Option (List α × List α)
  | [] => none
  | c :: r => if p c then some ([], r) else (cut? p r).map fun (a, b) => (c :: a, b)

def stripFront? {α : Type} [BEq α] : List α → List α → Option (List α)
  | [], cs => some cs
  | _ :: _, [] => none
  | p :: ps, c :: cs => if p == c then stripFront? ps cs else none

/-- Joins with a separator between neighbours. -/
def join (sep : String) : List String → String
  | [] => ""
  | [s] => s
  | s :: r => s ++ sep ++ join sep r

end Fabric.Text
