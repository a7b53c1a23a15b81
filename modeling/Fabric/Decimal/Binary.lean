/-! Binary floats as numbers. A finite float is `m · 2^q` under a sign; a ratio of naturals is
turned into the float nearest to it, a tie going to the even significand. All of it is exact
arithmetic on naturals. -/

namespace Fabric.Decimal

inductive Magnitude where
  | nan
  | infinite
  | finite (m : Nat) (q : Int)
deriving DecidableEq, Repr

def isNegative (x : Float) : Bool := 0x8000000000000000 ≤ x.toBits.toNat

def magnitude (x : Float) : Magnitude :=
  let n := x.toBits.toNat % 0x8000000000000000
  let e := n / 0x10000000000000
  let f := n % 0x10000000000000
  if e = 2047 then (if f = 0 then .infinite else .nan)
  else if e = 0 then .finite f (-1074)
  else .finite (f + 0x10000000000000) (e - 1075)

def infinity : Float := Float.ofBits 0x7FF0000000000000

def notANumber : Float := Float.ofBits 0x7FF8000000000000

def signed (negative : Bool) (x : Float) : Float := if negative then -x else x

/-- The float `m · 2^q` for `m ≤ 2^53`, where `q` is least for a smaller `m`. -/
def pack (m : Nat) (q : Int) : Float :=
  let n := (q + 1074).toNat * 0x10000000000000 + m
  if 0x7FF0000000000000 ≤ n then infinity else Float.ofBits n.toUInt64

/-- The natural nearest to `num / den`, a tie going to the even one. -/
def roundEven (num den : Nat) : Nat :=
  let d := num / den
  let twice := 2 * (num % den)
  if den < twice ∨ (twice = den ∧ d % 2 = 1) then d + 1 else d

/-- `num / den · 2^-q` as a ratio. -/
def scaledDown (num den : Nat) (q : Int) : Nat × Nat :=
  (num * Nat.pow 2 (-q).toNat, den * Nat.pow 2 q.toNat)

/-- The float nearest to `num / den`. The unit is chosen so that the quotient has 53 binary
digits, or fewer at the least unit. -/
def ofRatio (num den : Nat) : Float :=
  if num = 0 then 0
  else
    let guess : Int := max ((num.log2 : Int) - den.log2 - 53) (-1074)
    let (n, d) := scaledDown num den guess
    if n / d < 0x20000000000000 then pack (roundEven n d) guess
    else
      let (n, d) := scaledDown num den (guess + 1)
      pack (roundEven n d) (guess + 1)

/-- The float nearest to `d · 10^k`, where `len` is the number of digits of `d`. Outside the
range of the floats the powers need not be formed. -/
def ofScaled (d len : Nat) (k : Int) : Float :=
  if d = 0 then 0
  else if 400 < (len : Int) + k then infinity
  else if (len : Int) + k < -400 then 0
  else ofRatio (d * Nat.pow 10 k.toNat) (Nat.pow 10 (-k).toNat)

end Fabric.Decimal
