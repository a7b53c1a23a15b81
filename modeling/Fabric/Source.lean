import Fabric.Json.Decode

/-! What a value of a data format can be read as. Static configuration comes in more than one
format; a reader written against this class serves them all. -/

namespace Fabric

/-- A scalar whose form decides whether it is a number or a text. -/
inductive NumberOrText where
  | number (n : Nat)
  | text (s : String)
deriving DecidableEq, Repr

class Source (ν : Type) where
  /-- Does it stand for nothing where a value may be absent? -/
  absent? : ν → Option Bool
  text? : ν → Option String
  truth? : ν → Option Bool
  /-- A whole number up to a limit. -/
  natural? : Nat → ν → Option Nat
  /-- A number, whole or not. -/
  float? : ν → Option Float
  numberOrText? : ν → Option NumberOrText
  items? : ν → Option (List ν)
  /-- The entries of a map with arbitrary keys. -/
  entries? : ν → Option (List (ν × ν))
  /-- The members of a record with the given names. -/
  record? : List String → ν → Option (List (String × ν))

namespace Source

variable {ν : Type} [Source ν]

/-- The member of that name, if there is one. Two of them denote nothing. -/
def member? (r : List (String × ν)) (name : String) : Option (Option ν) :=
  match r.filter (·.1 = name) with
  | [] => some none
  | [(_, v)] => some (some v)
  | _ => none

def required {α : Type} (r : List (String × ν)) (name : String) (read : ν → Option α) : Option α :=
  match member? r name with
  | some (some v) => read v
  | _ => none

def defaulted {α : Type} (r : List (String × ν)) (name : String) (d : α) (read : ν → Option α) :
    Option α :=
  match member? r name with
  | some (some v) => read v
  | some none => some d
  | none => none

def optional {α : Type} (r : List (String × ν)) (name : String) (read : ν → Option α) :
    Option (Option α) :=
  defaulted r name none fun v =>
    match absent? v with
    | some true => some none
    | some false => (read v).map some
    | none => none

/-- Of entries with one key the last stays. -/
def table? {κ μ : Type} [Ord κ] [Std.TransOrd κ] [Std.LawfulEqOrd κ] (key : ν → Option κ)
    (value : ν → Option μ) (v : ν) : Option (Table κ μ) := do
  let es ← entries? v
  let es ← es.mapM fun (k, v) => do pure ((← key k), (← value v))
  some (Table.ofList es)

def list? {α : Type} (item : ν → Option α) (v : ν) : Option (List α) := do
  (← items? v).mapM item

def u32? (v : ν) : Option UInt32 := (natural? Text.maxU32 v).map Nat.toUInt32
def u64? (v : ν) : Option UInt64 := (natural? Text.maxU64 v).map Nat.toUInt64

end Source

instance : Source Json where
  absent? j := match j with
    | .null => some true
    | _ => some false
  text? := Json.text?
  truth? := Json.truth?
  natural? := Json.natural?
  float? := Json.float?
  numberOrText? j := match j with
    | .number (.natural n) => some (.number n)
    | _ => j.text?.map .text
  items? := Json.items? some
  entries? j := match j with
    | .record ms => some (ms.map fun (k, v) => (.text k, v))
    | _ => none
  record? := Json.record?

end Fabric
