import Fabric.Source

/-! TOML values, and what they can be read as. Nothing in a TOML text stands for a missing value,
and a moment stands only for itself. -/

namespace Fabric

inductive Toml where
  | text (s : String)
  | truth (b : Bool)
  | whole (n : Int)
  | float (x : Float)
  /-- A date, a time of day or both, as it is written. -/
  | moment (s : String)
  | list (items : List Toml)
  | table (entries : List (String × Toml))
deriving Repr

namespace Toml

def entries? : Toml → Option (List (String × Toml))
  | .table es => some es
  | _ => none

def ofWhole (n : Int) : Float :=
  let x := Decimal.ofRatio n.natAbs 1
  if n < 0 then -x else x

end Toml

instance : Source Toml where
  absent? _ := some false
  text? v := match v with
    | .text s => some s
    | _ => none
  truth? v := match v with
    | .truth b => some b
    | _ => none
  natural? limit v := match v with
    | .whole n => if 0 ≤ n ∧ n ≤ limit then some n.toNat else none
    | _ => none
  float? v := match v with
    | .float x => some x
    | .whole n => some (Toml.ofWhole n)
    | _ => none
  numberOrText? v := match v with
    | .whole n => if 0 ≤ n then some (.number n.toNat) else none
    | .text s => some (.text s)
    | _ => none
  items? v := match v with
    | .list l => some l
    | _ => none
  entries? v := (Toml.entries? v).map fun es => es.map fun (k, x) => (.text k, x)
  record? _ v := Toml.entries? v

end Fabric
