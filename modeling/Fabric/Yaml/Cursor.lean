import Fabric.Text.Numeral

/-! A place in a YAML text: what is left of it, and line and column. Lines end at a carriage
return, a line feed, the two together, or one of the three other line ends of Unicode. -/

namespace Fabric.Yaml

structure Cursor where
  rest : List Char
  index : Nat
  line : Nat
  column : Nat

def isLineEnd (c : Char) : Bool :=
  c = '\n' || c = '\r' || c = '\x85' || c = '\u2028' || c = '\u2029'

def isBlank (c : Char) : Bool := c = ' ' || c = '\t'

def isWordChar (c : Char) : Bool := c.isAlphanum || c = '_' || c = '-'

namespace Cursor

/-- A byte order mark in front is no part of the text, but takes up a column. -/
def start (cs : List Char) : Cursor :=
  match cs with
  | '\ufeff' :: r => ⟨r, 1, 0, 1⟩
  | _ => ⟨cs, 0, 0, 0⟩

/-- The character `n` places ahead. -/
def ahead (c : Cursor) (n : Nat) : Option Char := c.rest[n]?

def sees (c : Cursor) (n : Nat) (x : Char) : Bool := c.ahead n = some x

def atEnd (c : Cursor) : Bool := c.rest.isEmpty

def atBlank (c : Cursor) (n : Nat) : Bool := (c.ahead n).any isBlank

def atLineEnd (c : Cursor) (n : Nat) : Bool := (c.ahead n).any isLineEnd

/-- At a blank, a line end or the end of the text. -/
def atGap (c : Cursor) (n : Nat) : Bool := (c.ahead n).all fun x => isBlank x || isLineEnd x

def skip (c : Cursor) (n : Nat) : Cursor :=
  { c with rest := c.rest.drop n, index := c.index + n, column := c.column + n }

/-- Past a line end, and what it stands for: a line feed, or itself for the last two kinds. -/
def nextLine (c : Cursor) : List Char × Cursor :=
  let past (n : Nat) : Cursor := ⟨c.rest.drop n, c.index + n, c.line + 1, 0⟩
  match c.rest with
  | '\r' :: '\n' :: _ => (['\n'], past 2)
  | x :: _ =>
    if x = '\u2028' ∨ x = '\u2029' then ([x], past 1)
    else if isLineEnd x then (['\n'], past 1)
    else ([], c)
  | [] => ([], c)

def skipWhile (c : Cursor) (p : Char → Bool) : Cursor := c.skip (c.rest.takeWhile p).length

/-- To the end of the line. -/
def skipComment (c : Cursor) : Cursor :=
  if c.sees 0 '#' then c.skipWhile (!isLineEnd ·) else c

/-- A line of three dashes or dots, perhaps with more after a blank, bounds a document. -/
def atMark (c : Cursor) (x : Char) : Bool :=
  c.column = 0 && c.sees 0 x && c.sees 1 x && c.sees 2 x && c.atGap 3

def atBoundary (c : Cursor) : Bool := c.atMark '-' || c.atMark '.'

end Cursor
end Fabric.Yaml
