import Fabric.Text.CaseTable
import Fabric.Text.Ranges

/-! Full lower-casing of text. A letter maps to its simple lower-case form; two letters need more:
the dotted capital I becomes two characters, and the capital sigma takes its final form at the end
of a word, which is where a cased letter stands before it and none after, looking past the
characters that casing ignores. -/

namespace Fabric.Text

def isCased (c : Char) : Bool := inRanges CaseTable.cased c

def isCaseIgnorable (c : Char) : Bool := inRanges CaseTable.ignorable c

def lowerChar (c : Char) : Char :=
  match findRow CaseTable.lower (·.1) (·.2.1) c.toNat with
  | some (first, _, step, shift) =>
    if (c.toNat - first) % step = 0 then Char.ofNat (Int.toNat (c.toNat + shift)) else c
  | none => c

/-- Is the nearest character that casing does not ignore a cased letter? -/
def meetsCased (cs : List Char) : Bool :=
  match cs.dropWhile isCaseIgnorable with
  | c :: _ => isCased c
  | [] => false

/-- Lower-cases `cs`, whose predecessors are `before`, nearest first. -/
def lowerFrom (before : List Char) : List Char → List Char
  | [] => []
  | c :: r =>
    let here :=
      if c = 'Σ' then [if meetsCased before && !meetsCased r then 'ς' else 'σ']
      else if c = 'İ' then ['i', '\u0307']
      else [lowerChar c]
    here ++ lowerFrom (c :: before) r

def lower (s : String) : String := String.ofList (lowerFrom [] s.toList)

end Fabric.Text
