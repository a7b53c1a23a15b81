import Fabric.Link
import Fabric.Source
import Fabric.Text.Blank

/-! The static configuration of the switches: what each port is for and where the stack links
go. A port belongs to the first interface with its number, in key order, and otherwise to the
first range of ports that covers it. -/

namespace Fabric

open Fabric.Text

inductive PortType where
  | access
  | stack
  | egress
  | sequester
deriving DecidableEq, Repr

namespace PortType

def name : PortType → String
  | access => "access"
  | stack => "stack"
  | egress => "egress"
  | sequester => "sequester"

def ofName? (s : String) : Option PortType :=
  [access, stack, egress, sequester].find? (·.name = s)

end PortType

/-- An interface is filed under its number or under a name. Numbers come first. -/
inductive InterfaceKey where
  | number (n : UInt32)
  | name (s : String)
deriving DecidableEq, Repr

namespace InterfaceKey

def isName : InterfaceKey → Nat
  | number _ => 0
  | name _ => 1

def numberPart : InterfaceKey → UInt32
  | number n => n
  | name _ => 0

def namePart : InterfaceKey → String
  | number _ => ""
  | name s => s

instance : Ord InterfaceKey :=
  ⟨compareLex (compareOn isName) (compareLex (compareOn numberPart) (compareOn namePart))⟩

instance : Std.TransOrd InterfaceKey :=
  inferInstanceAs (Std.TransCmp
    (compareLex (compareOn isName) (compareLex (compareOn numberPart) (compareOn namePart))))

theorem compare_eq (x y : InterfaceKey) :
    compare x y = (compare x.isName y.isName).then
      ((compare x.numberPart y.numberPart).then (compare x.namePart y.namePart)) := rfl

instance : Std.LawfulEqOrd InterfaceKey where
  eq_of_compare {x y} h := by
    rw [compare_eq, Ordering.then_eq_eq, Ordering.then_eq_eq] at h
    obtain ⟨hi, hn, hs⟩ := h
    cases x <;> cases y <;> simp_all [isName, numberPart, namePart]

end InterfaceKey

structure Interface where
  number : Option UInt32
  description : Option String
  /-- A VLAN by its number or by its name. -/
  nativeVlan : Option String
  stackPeer : Option Endpoint
  lacp : Option UInt32
  loopProtectExternal : Option Bool
  outputOnly : Option Bool
  aclsIn : List String
  aclIn : Option String
deriving DecidableEq

namespace Interface

def portType (i : Interface) : PortType :=
  if i.stackPeer.isSome then .stack
  else if i.lacp.isSome || i.loopProtectExternal = some true then .egress
  else if i.outputOnly = some true then .sequester
  else .access

def acls (i : Interface) : List String := i.aclsIn ++ i.aclIn.toList

end Interface

structure SwitchWiring where
  dpId : Option UInt64
  description : Option String
  interfaces : Table InterfaceKey Interface
  /-- Filed under lists of ports such as `1-10,12`. -/
  ranges : Table String Interface
deriving DecidableEq

/-- The port number of an interface: the one it states, or else its key. -/
def interfaceNumber (k : InterfaceKey) (i : Interface) : Option UInt32 :=
  i.number.or <| match k with
    | .number n => some n
    | .name s => u32? (trim s.toList)

/-- Does one item of a list of ports, a number or a range, cover `port`? -/
def itemCovers (port : UInt32) (item : List Char) : Bool :=
  let item := trim item
  match cut? (· == '-') item with
  | some (a, b) =>
    match u32? (trim a), u32? (trim b) with
    | some a, some b => a ≤ port && port ≤ b
    | _, _ => false
  | none => u32? item = some port

def rangeCovers (spec : String) (port : UInt32) : Bool :=
  (splitAt (· == ',') spec.toList).any (itemCovers port)

namespace SwitchWiring

/-- The interfaces that have a number. -/
def numbered (w : SwitchWiring) : List (UInt32 × Interface) :=
  w.interfaces.toList.filterMap fun (k, i) => (interfaceNumber k i).map (·, i)

def interface? (w : SwitchWiring) (port : UInt32) : Option Interface :=
  (w.numbered.find? (·.1 = port)).map (·.2)

def range? (w : SwitchWiring) (port : UInt32) : Option Interface :=
  (w.ranges.toList.find? fun e => rangeCovers e.1 port).map (·.2)

end SwitchWiring

structure Wiring where
  switches : Table String SwitchWiring
deriving DecidableEq

namespace Wiring

def empty : Wiring := ⟨∅⟩

def port? (w : Wiring) (switch : String) (port : UInt32) : Option Interface :=
  (w.switches.get? switch).bind fun s => (s.interface? port).or (s.range? port)

def portType? (w : Wiring) (switch : String) (port : UInt32) : Option PortType :=
  (w.port? switch port).map (·.portType)

def description? (w : Wiring) (switch : String) : Option String :=
  (w.switches.get? switch).bind (·.description)

/-- The first switch with that datapath id, by name. -/
def nameOfId? (w : Wiring) (id : UInt64) : Option String :=
  (w.switches.toList.find? fun e => e.2.dpId = some id).map (·.1)

/-- Every numbered interface with the endpoint it is. -/
def endpoints (w : Wiring) : List (Endpoint × Interface) :=
  w.switches.toList.flatMap fun (s, c) => c.numbered.map fun (p, i) => (⟨s, p⟩, i)

def stackLinks (w : Wiring) : KeySet Link :=
  KeySet.ofList (w.endpoints.filterMap fun (e, i) => i.stackPeer.map (.between e))

/-- The egress ports by switch name and then by number. -/
def egressPorts (w : Wiring) : List Endpoint :=
  ((w.endpoints.filter fun e => e.2.portType = .egress).map (·.1)).mergeSort
    fun a b => (compare a b).isLE

end Wiring

/-! ## Reading -/

section Reading
variable {ν : Type} [Source ν]

open Source

def vlanName? (v : ν) : Option String :=
  match numberOrText? v with
  | some (.number n) => if n ≤ maxU16 then some (numeral n) else none
  | some (.text s) => some s
  | none => none

def interfaceKey? (v : ν) : Option InterfaceKey :=
  match numberOrText? v with
  | some (.number n) => if n ≤ maxU32 then some (.number n.toUInt32) else none
  | some (.text s) => some (.name s)
  | none => none

def stackPeer? (v : ν) : Option Endpoint := do
  let r ← record? ["dp", "port"] v
  let switch ← required r "dp" text?
  let port ← required r "port" u32?
  some ⟨switch, port⟩

def Interface.read? (v : ν) : Option Interface := do
  let r ← record? ["number", "description", "native_vlan", "stack", "lacp",
    "loop_protect_external", "output_only", "acls_in", "acl_in"] v
  let number ← optional r "number" u32?
  let description ← optional r "description" text?
  let nativeVlan ← optional r "native_vlan" vlanName?
  let stackPeer ← optional r "stack" stackPeer?
  let lacp ← optional r "lacp" u32?
  let loopProtectExternal ← optional r "loop_protect_external" truth?
  let outputOnly ← optional r "output_only" truth?
  let aclsIn ← defaulted r "acls_in" [] (list? text?)
  let aclIn ← optional r "acl_in" text?
  some { number, description, nativeVlan, stackPeer, lacp, loopProtectExternal, outputOnly,
         aclsIn, aclIn }

def SwitchWiring.read? (v : ν) : Option SwitchWiring := do
  let r ← record? ["dp_id", "description", "interfaces", "interface_ranges"] v
  let dpId ← optional r "dp_id" u64?
  let description ← optional r "description" text?
  let interfaces ← defaulted r "interfaces" ∅ (table? interfaceKey? Interface.read?)
  let ranges ← defaulted r "interface_ranges" ∅ (table? text? Interface.read?)
  some { dpId, description, interfaces, ranges }

def Wiring.read? (v : ν) : Option Wiring := do
  let r ← record? ["dps"] v
  let switches ← defaulted r "dps" ∅ (table? text? SwitchWiring.read?)
  some ⟨switches⟩

end Reading
end Fabric
