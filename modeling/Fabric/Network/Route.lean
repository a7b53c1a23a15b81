import Fabric.Network.Hosts

/-! Routes: from a switch along the root hop ports to the root, and from host to host along the
ports on which the destination is learned. -/

namespace Fabric

open Fabric.Text

structure Hop where
  switch : String
  inPort : Option UInt32
  outPort : Option UInt32
deriving DecidableEq, Repr

/-- Why a route ends before its goal. -/
inductive RouteFault where
  | loop
  | rootAbsent
  | tooLong (dst : Mac)
  | notLearned (dst : Mac) (switch : String)
  | misplaced (dst : Mac) (place : Endpoint) (expected : UInt32)
  | notStacked (place : Endpoint)
deriving DecidableEq, Repr

/-- A route to a host that passes more switches than this has no end. -/
def hopLimit : Nat := 5

def RouteFault.message : RouteFault → String
  | loop => "No path to root found. Loop in topology."
  | rootAbsent => "No path to root found. Root absent in topology."
  | tooLong dst =>
    "Forwarding loop: " ++ dst.text ++ " not reached within " ++ numeral hopLimit ++ " hops"
  | notLearned dst switch => dst.text ++ " not learned on " ++ switch
  | misplaced dst place expected =>
    dst.text ++ " learned on " ++ place.text ++ ", expected access port " ++ numeral expected.toNat
  | notStacked place => place.text ++ " is not a stack port"

/-- The hops as far as they lead, and what is wrong with the end of them. -/
structure Route where
  hops : List Hop
  fault : Option RouteFault
deriving DecidableEq, Repr

def Route.follow (h : Hop) (r : Route) : Route := { r with hops := h :: r.hops }

structure HostRoute where
  srcIp : Option String
  dstIp : Option String
  route : Route
deriving DecidableEq, Repr

namespace Network

/-! ## To the root -/

/-- The first member on the root in the best health there is, or else the first configured port. -/
def rootEgressPort (n : Network) (w : Wiring) : Option UInt32 := do
  let root ← n.topology.applied.root
  let member (h : MemberHealth) : Option Endpoint :=
    (n.egress.toList.find? fun e => e.1.switch = root && e.2.health = h).map (·.1)
  let place ← (member .active).or <| (member .up).or <|
    w.egressPorts.find? (·.switch = root)
  some place.port

/-- A switch as it is entered and left. -/
abbrev Crossing := String × Option UInt32 × UInt32

/-- Follows the root hop ports. A crossing made twice would be made forever. -/
def climb (t : Topology) (rootExit : Option UInt32) :
    Nat → List Crossing → String → Option UInt32 → Route
  | 0, _, _, _ => ⟨[], some .loop⟩
  | fuel + 1, made, switch, inPort =>
    match t.rootHop? switch with
    | none =>
      if t.isRoot switch then ⟨[⟨switch, inPort, rootExit⟩], none⟩ else ⟨[], some .rootAbsent⟩
    | some out =>
      if made.contains (switch, inPort, out) then ⟨[], some .loop⟩
      else
        Route.follow ⟨switch, inPort, some out⟩ <|
          match t.peer? ⟨switch, out⟩ with
          | none => ⟨[], some .rootAbsent⟩
          | some far =>
            climb t rootExit fuel ((switch, inPort, out) :: made) far.switch (some far.port)

/-- The route of what enters `switch` by `inPort`. Every crossing but the first is fixed by the
switch before it, so no walk makes more of them than there are root hop ports and one. -/
def routeToEgress (n : Network) (w : Wiring) (switch : String) (inPort : Option UInt32) : Route :=
  let t := n.topology.applied
  climb t (n.rootEgressPort w) (t.rootHops.size + 2) [] switch inPort

/-! ## To a host -/

/-- Who is looked for, where each switch sees it, and its access point. -/
structure Goal where
  mac : Mac
  sightings : Table String Sighting
  place : Endpoint

/-- The configured far end of a stack port. -/
def stackPeer? (w : Wiring) (e : Endpoint) : Option Endpoint :=
  (w.port? e.switch e.port).bind fun i => if i.portType = .stack then i.stackPeer else none

def approach (w : Wiring) (goal : Goal) : Nat → String → UInt32 → Route
  | 0, _, _ => ⟨[], some (.tooLong goal.mac)⟩
  | left + 1, switch, inPort =>
    match goal.sightings.get? switch with
    | none => ⟨[], some (.notLearned goal.mac switch)⟩
    | some s =>
      let place : Endpoint := ⟨switch, s.port⟩
      Route.follow ⟨switch, some inPort, some s.port⟩ <|
        if switch = goal.place.switch then
          if s.port = goal.place.port then ⟨[], none⟩
          else ⟨[], some (.misplaced goal.mac place goal.place.port)⟩
        else
          match stackPeer? w place with
          | none => ⟨[], some (.notStacked place)⟩
          | some far => approach w goal left far.switch far.port

/-- A host and its access point. -/
def located (n : Network) (w : Wiring) (mac : Mac) : Except Fault (Host × Endpoint) :=
  match n.hosts.get? mac with
  | none => .error (.unknownHost mac.text)
  | some h =>
    match n.accessPoint? w mac with
    | none => .error (.inconsistent (mac.text ++ " is not learned on an access port"))
    | some e => .ok (h, e)

/-- The route from a host to another one, or to the egress when no other is given. -/
def hostRoute (n : Network) (w : Wiring) (src : Mac) (dst : Option Mac) :
    Except Fault HostRoute := do
  let (host, place) ← n.located w src
  let srcIp := host.ips.keys.head?
  match dst with
  | none => .ok ⟨srcIp, none, n.routeToEgress w place.switch (some place.port)⟩
  | some dst =>
    let (other, goal) ← n.located w dst
    .ok ⟨srcIp, other.ips.keys.head?,
      approach w ⟨dst, other.sightings, goal⟩ hopLimit place.switch place.port⟩

end Network
end Fabric
