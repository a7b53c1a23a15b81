import Fabric.Egress
import Fabric.Switch
import Fabric.Topology
import Fabric.Vlan
import Fabric.Wiring

/-! What is known of the network, and what is told to the outside when it changes. An update maps
a network to an outcome: the network after it and the notices it gives rise to. -/

namespace Fabric

structure Network where
  switches : Table String Switch
  links : Table Link TrackedLink
  topology : TopologyStatus
  egress : EgressGroup
  hosts : Table Mac Host
  /-- How often a host was found, moved or lost on a switch. -/
  hostChanges : Nat
  vlans : Table UInt16 VlanCounters

namespace Network

def empty : Network := ⟨∅, ∅, .fresh, ∅, ∅, 0, ∅⟩

def port? (n : Network) (e : Endpoint) : Option Port :=
  (n.switches.get? e.switch).bind (·.ports.get? e.port)

def stackState? (n : Network) (e : Endpoint) : Option StackState := (n.port? e).bind (·.stack)

/-- The hosts learned on a port. -/
def macsAt (n : Network) (e : Endpoint) : List Mac := ((n.port? e).map (·.macs.keys)).getD []

def sighting? (n : Network) (mac : Mac) (switch : String) : Option Sighting :=
  (n.hosts.get? mac).bind (·.sightings.get? switch)

def updateSwitch (n : Network) (name : String) (f : Switch → Switch) : Network :=
  { n with switches := n.switches.upsert name (.fresh name) f }

def updatePort (n : Network) (e : Endpoint) (f : Port → Port) : Network :=
  n.updateSwitch e.switch fun s => { s with ports := s.ports.upsert e.port .fresh f }

end Network

/-- What the authorization side gets to know. -/
inductive Notice where
  /-- A host came to or left an access port. No host is named when the port went down empty. -/
  | placement (mac : Option Mac) (place : Endpoint) (connected : Bool)
  | portState (place : Endpoint) (up : Bool)
  | learned (place : Endpoint) (mac : Mac)
  /-- A host changed its VLAN. -/
  | reassigned (mac : Mac) (vid : UInt16)
deriving DecidableEq, Repr

structure Outcome where
  network : Network
  notices : List Notice

namespace Outcome

def quiet (n : Network) : Outcome := ⟨n, []⟩

def andThen (o : Outcome) (f : Network → Outcome) : Outcome :=
  let r := f o.network
  ⟨r.network, o.notices ++ r.notices⟩

/-- One update after the other. -/
def forEach {α : Type} (l : List α) (f : α → Network → Outcome) (n : Network) : Outcome :=
  l.foldl (fun o a => o.andThen (f a)) (quiet n)

end Outcome
end Fabric
