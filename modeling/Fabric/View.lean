import Fabric.Network.Health
import Fabric.Network.Route

/-! What is shown of the network: what is known of each switch, link and host, joined with how it
is configured and how it fares. -/

namespace Fabric

structure PortView where
  port : Port
  interface : Option Interface
deriving DecidableEq

structure SwitchView where
  switch : Switch
  description : Option String
  ports : Table UInt32 PortView
  route : Route
deriving DecidableEq

structure SwitchesView where
  summary : Summary
  switches : Table String SwitchView
deriving DecidableEq

structure EgressView where
  summary : Summary
  /-- Filed under their texts. -/
  members : Table String EgressMember
deriving DecidableEq

structure DataplaneView where
  summary : Summary
  switches : Table String (Option SwitchStatus)
  /-- Filed under their texts. -/
  links : Table String TrackedLink
  topology : TopologyStatus
  egress : Option EgressView
  vlans : Table UInt16 VlanCounters

structure HostView where
  host : Host
  access : Option Endpoint
deriving DecidableEq

namespace Network

def switchView (n : Network) (w : Wiring) (s : Switch) : SwitchView :=
  { switch := s
    description := w.description? s.name
    ports := s.ports.map fun p x => ⟨x, w.port? s.name p⟩
    route := n.routeToEgress w s.name none }

/-- Every switch, or the one with that name. -/
def switchesView (n : Network) (w : Wiring) (name : Option String) : Except Fault SwitchesView :=
  match name with
  | none => .ok ⟨n.switchSummary, n.switches.map fun _ s => n.switchView w s⟩
  | some name =>
    match n.switches.get? name with
    | none => .error (.unknownSwitch name)
    | some s => .ok ⟨n.switchSummary, Table.ofList [(s.name, n.switchView w s)]⟩

def egressView? (n : Network) (w : Wiring) : Option EgressView :=
  (n.egressSummary? w).map fun s =>
    ⟨s, Table.ofList ((n.egressMembers w).toList.map fun (e, m) => (e.text, m))⟩

def dataplaneView (n : Network) (w : Wiring) : DataplaneView :=
  { summary := n.dataplaneSummary w
    switches := n.switches.map fun _ s => s.status
    links := Table.ofList (n.links.values.map fun l => (l.link.text, l))
    topology := n.topology
    egress := n.egressView? w
    vlans := n.vlans }

def hostsView (n : Network) (w : Wiring) : Table Mac HostView :=
  n.hosts.map fun mac h => ⟨h, n.accessPoint? w mac⟩

end Network
end Fabric
