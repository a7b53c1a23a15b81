import Fabric.Decimal.Binary

/-! The fewest decimal digits that read back as a given float. The reals that round to
`m · 2^q` form an interval, its ends included when `m` is even. Grids of one, two, ... digits
are tried; the first grid with a point in the interval wins, and of two such points the nearer. -/

namespace Fabric.Decimal

/-- The number `coefficient · 10^exponent`. -/
structure Digits where
  coefficient : Nat
  exponent : Int
deriving DecidableEq, Repr

/-- A value and the interval around it, as numerators over one denominator. -/
structure Interval where
  low : Nat
  value : Nat
  high : Nat
  den : Nat
  closed : Bool
deriving DecidableEq, Repr

/-- Half a unit either way, but only a quarter below a power of two, where the unit halves. -/
def interval (m : Nat) (q : Int) : Interval :=
  let up := Nat.pow 2 (q - 2).toNat
  let below := if m = 0x10000000000000 ∧ -1074 < q then 1 else 2
  { low := (4 * m - below) * up
    value := 4 * m * up
    high := (4 * m + 2) * up
    den := Nat.pow 2 (2 - q).toNat
    closed := m % 2 = 0 }

/-- The interval counted in steps of `10^k`. -/
def Interval.onGrid (i : Interval) (k : Int) : Interval :=
  let up := Nat.pow 10 (-k).toNat
  { low := i.low * up, value := i.value * up, high := i.high * up
    den := i.den * Nat.pow 10 k.toNat, closed := i.closed }

def Interval.holds (i : Interval) (d : Nat) : Bool :=
  let n := d * i.den
  if i.closed then i.low ≤ n && n ≤ i.high else i.low < n && n < i.high

/-- The grid point in the interval that is nearest to the value; a tie goes to the even one. -/
def Interval.point? (i : Interval) : Option Nat :=
  let d := i.value / i.den
  match i.holds d, i.holds (d + 1) with
  | false, false => none
  | true, false => some d
  | false, true => some (d + 1)
  | true, true => some (roundEven i.value i.den)

/-- One less than the number of digits of `n`. -/
def log10 (n : Nat) : Nat :=
  let guess := n.log2 * 1233 / 4096
  if Nat.pow 10 (guess + 1) ≤ n then guess + 1 else guess

/-- The place of the leading digit of `num / den`. -/
def leadingPlace (num den : Nat) : Int :=
  if den ≤ num then log10 (num / den)
  else
    let j := log10 (den / num)
    if den ≤ num * Nat.pow 10 j then -j else -(j + 1 : Int)

def searchGrid (i : Interval) (k : Int) : Nat → Digits
  | 0 => ⟨(i.onGrid k).value / (i.onGrid k).den, k⟩
  | fuel + 1 =>
    match (i.onGrid k).point? with
    | some d => ⟨d, k⟩
    | none => searchGrid i (k - 1) fuel

def stripZeros (d : Nat) (k : Int) : Nat → Digits
  | 0 => ⟨d, k⟩
  | fuel + 1 => if d % 10 = 0 then stripZeros (d / 10) (k + 1) fuel else ⟨d, k⟩

/-- The shortest digits of `m · 2^q` for a positive `m`. Seventeen digits always suffice. -/
def shortest (m : Nat) (q : Int) : Digits :=
  let i := interval m q
  let found := searchGrid i (leadingPlace i.value i.den) 17
  stripZeros found.coefficient found.exponent 17

end Fabric.Decimal
