import Fabric.Json.Reader
import Fabric.Table

/-! What the parts of a JSON value denote. A record may also be written as the list of its members
in order, the last ones left out. -/

namespace Fabric.Json

open Fabric.Text

def truth? : Json → Option Bool
  | .truth b => some b
  | _ => none

def text? : Json → Option String
  | .text l => denoted? l
  | _ => none

def natural? (limit : Nat) : Json → Option Nat
  | .number (.natural n) => if n ≤ limit then some n else none
  | _ => none

def u16? (j : Json) : Option UInt16 := (j.natural? maxU16).map Nat.toUInt16
def u32? (j : Json) : Option UInt32 := (j.natural? maxU32).map Nat.toUInt32
def u64? (j : Json) : Option UInt64 := (j.natural? maxU64).map Nat.toUInt64

/-- A signed 64-bit integer. -/
def integer? : Json → Option Int
  | .number (.natural n) => if n ≤ maxI64 then some n else none
  | .number (.negative n) => if n ≤ maxI64 + 1 then some (-n) else none
  | _ => none

/-- A whole number also counts as a float; one past the floats denotes nothing. -/
def float? : Json → Option Float
  | .number (.natural n) => some (Decimal.ofRatio n 1)
  | .number (.negative n) => some (-Decimal.ofRatio n 1)
  | .number (.float x) => if Decimal.isFinite x then some x else none
  | _ => none

def items? {α : Type} (item : Json → Option α) : Json → Option (List α)
  | .list l => l.mapM item
  | _ => none

/-- A record with arbitrary keys; of members with one key the last stays. -/
def table? {κ ν : Type} [Ord κ] [Std.TransOrd κ] [Std.LawfulEqOrd κ]
    (key : List UInt8 → Option κ) (value : Json → Option ν) : Json → Option (Table κ ν)
  | .record ms =>
    (ms.mapM fun (k, v) => do pure ((← key k), (← value v))).map Table.ofList
  | _ => none

/-- A key that is an unsigned number, written without escapes. -/
def u32Key? (literal : List UInt8) : Option UInt32 :=
  match numeral? (literal.map fun b => Char.ofNat b.toNat) with
  | some n =>
    match n.value with
    | .natural m => if m ≤ maxU32 then some m.toUInt32 else none
    | _ => none
  | none => none

/-- The members of a record with the given names. -/
def record? (names : List String) : Json → Option (List (String × Json))
  | .record ms => ms.mapM fun (k, v) => (denoted? k).map (·, v)
  | .list l => if l.length ≤ names.length then some (names.zip l) else none
  | _ => none

end Fabric.Json
