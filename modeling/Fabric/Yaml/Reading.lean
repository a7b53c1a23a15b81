import Fabric.Decimal.Reader
import Fabric.Source
import Fabric.Yaml.Node

/-! What the nodes of a YAML document can be read as. A plain scalar without a tag is nothing, a
truth value, a number or a text by its form; any other scalar is a text unless its tag says
otherwise. Where a list or a mapping is wanted, an empty plain scalar is an empty one. -/

namespace Fabric.Yaml

open Fabric.Text

def nullTag : String := "tag:yaml.org,2002:null"
def boolTag : String := "tag:yaml.org,2002:bool"
def intTag : String := "tag:yaml.org,2002:int"
def floatTag : String := "tag:yaml.org,2002:float"

def isNull (s : String) : Bool := ["null", "Null", "NULL", "~"].contains s

def truth? (s : String) : Option Bool :=
  if ["true", "True", "TRUE"].contains s then some true
  else if ["false", "False", "FALSE"].contains s then some false
  else none

def startsSigned (cs : List Char) : Bool := cs.head?.any fun c => c = '+' || c = '-'

/-- Digits after a needless zero are a text. -/
def hasNeedlessZero (cs : List Char) : Bool :=
  let cs := if startsSigned cs then cs.drop 1 else cs
  match cs with
  | '0' :: r => !r.isEmpty && r.all fun c => (digit? 10 c).isSome
  | _ => false

/-- A whole number without a minus sign: decimal, or after `0x`, `0o` or `0b`. -/
def natural? (s : String) : Option Nat :=
  let cs := s.toList
  let body := match cs with
    | '+' :: r => r
    | _ => cs
  let inBase (base : Nat) (r : List Char) : Option Nat := digits? base r
  let based := match body with
    | '0' :: 'x' :: r => inBase 16 r
    | '0' :: 'o' :: r => inBase 8 r
    | '0' :: 'b' :: r => inBase 2 r
    | _ => none
  match based with
  | some n => some n
  | none => if hasNeedlessZero cs then none else digits? 10 body

/-- A whole number after a minus sign. -/
def negative? (s : String) : Option Nat :=
  match s.toList with
  | '-' :: r => if startsSigned r then none else natural? (String.ofList r)
  | _ => none

/-- A finite float, or one of the names of the others. -/
def float? (s : String) : Option Float :=
  let cs := s.toList
  let body := match cs with
    | '+' :: r => r
    | _ => cs
  let t := String.ofList body
  if cs.head? = some '+' && startsSigned body then none
  else if [".inf", ".Inf", ".INF"].contains t then some Decimal.infinity
  else if ["-.inf", "-.Inf", "-.INF"].contains s then some (-Decimal.infinity)
  else if [".nan", ".NaN", ".NAN"].contains s then some Decimal.notANumber
  else (Decimal.float? body).filter Decimal.isFinite

/-- What a plain scalar without a tag is by its form. -/
inductive Form where
  | nothing
  | truth (b : Bool)
  | whole (n : Nat)
  | negative (n : Nat)
  | float (x : Float)
  | text

def form (s : String) : Form :=
  if s = "" || isNull s then .nothing
  else match truth? s with
  | some b => .truth b
  | none =>
    match natural? s, negative? s with
    | some n, _ => .whole n
    | none, some n => .negative n
    | none, none =>
      if hasNeedlessZero s.toList then .text
      else match float? s with
        | some x => .float x
        | none => .text

/-- A node in its document. -/
structure Spot where
  anchors : Table Nat Node
  node : Node

namespace Spot

/-- The node that an alias stands for. -/
def target (p : Spot) : Node :=
  match p.node with
  | .alias i => (p.anchors.get? i).getD .blank
  | n => n

/-- Nothing, where something may be absent: an empty plain scalar or a null. -/
def absent? (p : Spot) : Option Bool :=
  match p.target with
  | .scalar none .plain s => some (s = "" || isNull s)
  | .scalar (some t) .plain s =>
    if t = nullTag then (if isNull s then some true else none) else some false
  | _ => some false

def text? (p : Spot) : Option String :=
  match p.target with
  | .scalar _ _ s => some s
  | _ => none

/-- A scalar that is read by its form: a plain one, or a literal one with the tag for it. -/
def formal? (p : Spot) (tag : String) : Option String :=
  match p.target with
  | .scalar _ .plain s => some s
  | .scalar (some t) .literal s => if t = tag then some s else none
  | _ => none

def numberOrText? (p : Spot) : Option NumberOrText :=
  match p.target with
  | .scalar none .plain s =>
    match form s with
    | .whole n => some (.number n)
    | .text => some (.text s)
    | _ => none
  | .scalar none _ s => some (.text s)
  | .scalar (some t) _ s =>
    if t.toList.head? = some '!' then none
    else if t = intTag then (Yaml.natural? s).map .number
    else if t = boolTag || t = floatTag || t = nullTag then none
    else some (.text s)
  | _ => none

def isEmpty (n : Node) : Bool :=
  match n with
  | .scalar _ .plain s => s = ""
  | _ => false

def items? (p : Spot) : Option (List Spot) :=
  match p.target with
  | .list _ l => some (l.map (⟨p.anchors, ·⟩))
  | n => if isEmpty n then some [] else none

def entries? (p : Spot) : Option (List (Spot × Spot)) :=
  match p.target with
  | .map _ l => some (l.map fun (k, v) => (⟨p.anchors, k⟩, ⟨p.anchors, v⟩))
  | n => if isEmpty n then some [] else none

def record? (names : List String) (p : Spot) : Option (List (String × Spot)) :=
  match p.target with
  | .list _ l =>
    if l.length ≤ names.length then some (names.zip (l.map (⟨p.anchors, ·⟩))) else none
  | _ => do
    (← p.entries?).mapM fun (k, v) => k.text?.map (·, v)

end Spot

instance : Source Spot where
  absent? := Spot.absent?
  text? := Spot.text?
  truth? p := (p.formal? boolTag).bind truth?
  natural? limit p := ((p.formal? intTag).bind natural?).filter (· ≤ limit)
  float? p := (p.formal? floatTag).bind Yaml.float?
  numberOrText? := Spot.numberOrText?
  items? := Spot.items?
  entries? := Spot.entries?
  record? := Spot.record?

/-- The document of a text as a spot; a text without one is an empty scalar. -/
def Spot.ofText? (s : String) : Option Spot :=
  (document? s).map fun d =>
    match d with
    | some d => ⟨d.anchors, d.root⟩
    | none => ⟨∅, .blank⟩

end Fabric.Yaml
