import Fabric.Decimal.Binary
import Fabric.Text.Numeral

/-! Reading a decimal text as the nearest float: an optional sign, then a name of infinity or of
no number in any case, or digits with at most one point and an optional exponent. -/

namespace Fabric.Decimal

open Fabric.Text

def isDigit (c : Char) : Bool := (digit? 10 c).isSome

/-- An exponent's digits; past this bound every number is infinite or zero. -/
def exponentLimit : Nat := 1000000

def exponent? (cs : List Char) : Option Int :=
  let (negative, body) := match cs with
    | '-' :: r => (true, r)
    | '+' :: r => (false, r)
    | _ => (false, cs)
  (digits? 10 body).map fun n =>
    let n : Int := min n exponentLimit
    if negative then -n else n

/-- Digits, point and exponent without a sign. -/
def unsignedFloat? (cs : List Char) : Option Float :=
  let whole := cs.takeWhile isDigit
  let r := cs.dropWhile isDigit
  let (fraction, r) := match r with
    | '.' :: r => (r.takeWhile isDigit, r.dropWhile isDigit)
    | _ => ([], r)
  let ds := (whole ++ fraction).dropWhile (· == '0')
  if whole.isEmpty && fraction.isEmpty then none
  else
    let scaled (e : Int) : Float :=
      ofScaled ((digitsFrom 10 0 ds).getD 0) ds.length (e - fraction.length)
    match r with
    | [] => some (scaled 0)
    | c :: r => if c = 'e' ∨ c = 'E' then (exponent? r).map scaled else none

def asciiLower (c : Char) : Char := c.toLower

def float? (cs : List Char) : Option Float :=
  let (negative, body) := match cs with
    | '-' :: r => (true, r)
    | '+' :: r => (false, r)
    | _ => (false, cs)
  let name := String.ofList (body.map asciiLower)
  let size? :=
    if name = "inf" ∨ name = "infinity" then some infinity
    else if name = "nan" then some notANumber
    else unsignedFloat? body
  size?.map (signed negative)

end Fabric.Decimal
