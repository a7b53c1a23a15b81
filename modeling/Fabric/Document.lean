import Fabric.Json.Value
import Fabric.Time

/-! Documents: what is shown to a reader, before a format is chosen for it. -/

namespace Fabric

inductive DocKey where
  | text (s : String)
  | number (n : Nat)
deriving DecidableEq, Repr

def DocKey.label : DocKey → String
  | .text s => s
  | .number n => Text.numeral n

inductive Doc where
  | null
  | truth (b : Bool)
  | number (n : Nat)
  | float (x : Float)
  | text (s : String)
  | list (items : List Doc)
  | record (members : List (DocKey × Doc))
deriving Repr

namespace Doc

def ofOption {α : Type} (f : α → Doc) : Option α → Doc
  | some a => f a
  | none => null

def ofInstant (t : Instant) : Doc := text (Instant.text t)

def ofTexts (l : List String) : Doc := list (l.map text)

def fields (ms : List (String × Doc)) : Doc := record (ms.map fun (k, v) => (.text k, v))

/-- A member that is left out when there is no value. -/
def maybe {α : Type} (name : String) (f : α → Doc) (o : Option α) : List (String × Doc) :=
  (o.map fun a => (name, f a)).toList

mutual

def toJson : Doc → Json
  | null => .null
  | truth b => .truth b
  | number n => .ofNat n
  | float x => .ofFloat x
  | text s => .ofText s
  | list l => .list (itemsToJson l)
  | record ms => .record (membersToJson ms)

def itemsToJson : List Doc → List Json
  | [] => []
  | d :: r => toJson d :: itemsToJson r

def membersToJson : List (DocKey × Doc) → List (List UInt8 × Json)
  | [] => []
  | (k, d) :: r => (Json.literalOf k.label, toJson d) :: membersToJson r

end

end Doc
end Fabric
