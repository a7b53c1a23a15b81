import Fabric.Network
import Fabric.Summary
import Fabric.Text.Blank

/-! The health of the network, worked out anew for every question. -/

namespace Fabric.Network

open Fabric.Text

def listed (names : List String) : String := join ", " names

/-- Switches that are not connected. -/
def disconnected (n : Network) : List String :=
  (n.switches.values.filter (!·.isConnected)).map (·.name)

def switchChanges (n : Network) : Changes := .total (n.switches.values.map (·.changes))

def switchSummary (n : Network) : Summary :=
  if n.switches.isEmpty then .broken "No switches"
  else
    match n.disconnected with
    | [] => ⟨.healthy, numeral n.switches.size ++ " switches connected", n.switchChanges⟩
    | names => ⟨.broken, "Switches not connected: " ++ listed names, n.switchChanges⟩

/-- Configured egress ports and all that ever reported; who never did is silent. -/
def egressMembers (n : Network) (w : Wiring) : EgressGroup :=
  (Table.ofList (w.egressPorts.map fun e => (e, EgressMember.silent))).override n.egress

def membersOf (g : EgressGroup) (h : MemberHealth) : List Endpoint :=
  (g.toList.filter (·.2.health = h)).map (·.1)

/-- Nothing where there is no egress at all. -/
def egressSummary? (n : Network) (w : Wiring) : Option Summary :=
  let members := n.egressMembers w
  let changes := n.egress.changes
  if members.isEmpty then none
  else
    some <| match membersOf members .active, membersOf members .down with
      | [], _ => ⟨.broken, "No active egress link", changes⟩
      | active, [] => ⟨.healthy, numeral active.length ++ " active egress links", changes⟩
      | _, failed => ⟨.damaged, "Egress links down: " ++ listed (failed.map Endpoint.text), changes⟩

/-- Links that carry nothing. -/
def failedLinks (n : Network) : List Link :=
  (n.links.values.filter (!·.state.isHealthy)).map (·.link)

def linkChanges (n : Network) : Changes := .total (n.links.values.map (·.changes))

def floodingVlans (n : Network) : List UInt16 := (n.vlans.toList.filter (·.2.flooding)).map (·.1)

/-- What is wrong with the dataplane, with how bad it is. -/
def dataplaneFaults (n : Network) (w : Wiring) : List (State × String) :=
  let egress := match n.egressSummary? w with
    | some s => if s.state = .healthy then [] else [(s.state, s.detail)]
    | none => []
  let fault (state : State) (what : String) (names : List String) : List (State × String) :=
    if names.isEmpty then [] else [(state, what ++ listed names)]
  egress ++ fault .broken "Switches down: " n.disconnected ++
    fault .damaged "Links not up: " (n.failedLinks.map Link.text) ++
    fault .broken "VLANs over packet rate threshold: "
      (n.floodingVlans.map fun v => numeral v.toNat)

def dataplaneChanges (n : Network) (w : Wiring) : Changes :=
  let egress := if (n.egressSummary? w).isSome then n.egress.changes else .none
  .total [egress, n.switchChanges, n.linkChanges, n.topology.linkChanges, n.topology.rootChanges]

def dataplaneSummary (n : Network) (w : Wiring) : Summary :=
  let faults := n.dataplaneFaults w
  { state := (faults.map (·.1)).foldl State.worst .healthy
    detail := if faults.isEmpty then "Dataplane healthy" else join "; " (faults.map (·.2))
    changes := n.dataplaneChanges w }

def hostSummary (n : Network) : Summary :=
  let times := n.hosts.values.flatMap fun h => h.sightings.values.map fun s => some s.learnedAt
  ⟨.healthy, numeral n.hosts.size ++ " hosts learned", ⟨n.hostChanges, Changes.latest times⟩⟩

end Fabric.Network
