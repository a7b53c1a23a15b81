/-! Looking up a code point in an ascending table of ranges. -/

namespace Fabric.Text

/-- The row of an ascending range table that holds `n`, by bisection of `len` rows from `lo`. -/
def rowOf {ρ : Type} (table : Array ρ) (first last : ρ → Nat) (n : Nat) : Nat → Nat → Nat → Option ρ
  | 0, _, _ => none
  | fuel + 1, lo, len =>
    if len = 0 then none
    else
      let mid := lo + len / 2
      match table[mid]? with
      | none => none
      | some row =>
        if n < first row then rowOf table first last n fuel lo (len / 2)
        else if last row < n then rowOf table first last n fuel (mid + 1) (len - len / 2 - 1)
        else some row

/-- Bisection halves the table, so as many rounds as it has rows are enough. -/
def findRow {ρ : Type} (table : Array ρ) (first last : ρ → Nat) (n : Nat) : Option ρ :=
  rowOf table first last n (table.size + 1) 0 table.size

def inRanges (table : Array (Nat × Nat)) (c : Char) : Bool :=
  (findRow table (·.1) (·.2) c.toNat).isSome

end Fabric.Text
