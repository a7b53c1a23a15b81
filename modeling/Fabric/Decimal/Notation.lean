import Fabric.Decimal.Shortest
import Fabric.Text.Numeral

/-! The text of a float: its shortest digits laid out by a style, or a fixed number of places. -/

namespace Fabric.Decimal

open Fabric.Text

/-- How shortest digits are laid out. A number whose point falls after the place `least` and no
further right than `most` is written positionally, any other with an exponent. -/
structure Style where
  least : Option Int
  most : Option Int
  /-- Written after a whole number that has no point. -/
  wholeMark : String
  exponentPlus : String
  exponentWidth : Nat
  nan : String
  infinite : String
deriving DecidableEq, Repr

/-- Always positional, whole numbers without a point. -/
def plain : Style := ⟨none, none, "", "", 1, "NaN", "inf"⟩

/-- Numbers of a JSON text. -/
def json : Style := ⟨some (-5), some 16, ".0", "+", 2, "null", "null"⟩

/-- Floats of a TOML text. -/
def toml : Style := ⟨none, none, ".0", "", 1, "nan", "inf"⟩

/-- Scalars of a YAML text. -/
def yaml : Style := ⟨some (-5), some 16, ".0", "", 1, ".nan", ".inf"⟩

def zeros (n : Int) : List Char := List.replicate n.toNat '0'

/-- The digits `ds` with the point after the first `p` of them. -/
def positional (ds : List Char) (p : Int) (wholeMark : String) : String :=
  let n : Int := ds.length
  if p ≤ 0 then "0." ++ String.ofList (zeros (-p) ++ ds)
  else if n ≤ p then String.ofList (ds ++ zeros (p - n)) ++ wholeMark
  else String.ofList (ds.take p.toNat ++ '.' :: ds.drop p.toNat)

def scientific (style : Style) (ds : List Char) (p : Int) : String :=
  let head := match ds with
    | [] => []
    | [d] => [d]
    | d :: r => d :: '.' :: r
  let mark := if p - 1 < 0 then "-" else style.exponentPlus
  String.ofList head ++ "e" ++ mark ++ padded style.exponentWidth (p - 1).natAbs

def Digits.text (style : Style) (x : Digits) : String :=
  let ds := numeralIn 10 x.coefficient
  let p := ds.length + x.exponent
  if style.least.all (· < p) ∧ style.most.all (p ≤ ·) then positional ds p style.wholeMark
  else scientific style ds p

def signText (x : Float) : String := if isNegative x then "-" else ""

/-- The shortest text of `x` that reads back as `x`. -/
def text (style : Style) (x : Float) : String :=
  match magnitude x with
  | .nan => style.nan
  | .infinite => signText x ++ style.infinite
  | .finite 0 _ => signText x ++ "0" ++ style.wholeMark
  | .finite (m + 1) q => signText x ++ (shortest (m + 1) q).text style

/-- Exactly `places` digits after the point, the last one rounded, a tie to the even one. -/
def fixed (places : Nat) (x : Float) : String :=
  match magnitude x with
  | .nan => plain.nan
  | .infinite => signText x ++ plain.infinite
  | .finite m q =>
    let d := roundEven (m * Nat.pow 2 q.toNat * Nat.pow 10 places) (Nat.pow 2 (-q).toNat)
    let ds := padded (places + 1) d
    let whole := ds.length - places
    signText x ++ String.ofList (ds.toList.take whole) ++
      (if places = 0 then "" else "." ++ String.ofList (ds.toList.drop whole))

def isFinite (x : Float) : Bool :=
  match magnitude x with
  | .finite _ _ => true
  | _ => false

end Fabric.Decimal
