import Fabric.Engine.Query
import Fabric.Text.Grid
import Fabric.View.Doc

/-! Reports for a reader at a terminal: what the views say, in short lines and boxed tables. -/

namespace Fabric.Cli

open Fabric.Text

def orDash (o : Option String) : String := o.getD "-"

def countText (n : Nat) : String := numeral n

def portText (o : Option UInt32) : String := orDash (o.map fun p => numeral p.toNat)

def headline (s : Summary) : String := s.state.name ++ ": " ++ s.detail ++ "\n"

def summaryRow (axis : String) (s : Summary) : List String :=
  [axis, s.state.name, s.detail, countText s.changes.count,
    orDash (s.changes.last.map Instant.tableText)]

def summaryGrid (rows : List (List String)) : Grid :=
  ⟨["Axis", "State", "Detail", "Changes", "Last change"], rows⟩

def statusReport (switches dataplane hosts : Summary) : String :=
  (summaryGrid [summaryRow "switches" switches, summaryRow "dataplane" dataplane,
    summaryRow "hosts" hosts]).text

def reloadText (r : Reloads) : String :=
  match r.kind with
  | some kind => countText r.count ++ " (" ++ kind ++ ")"
  | none => countText r.count

def switchRow (v : SwitchView) : List String :=
  let s := v.switch
  [s.name, orDash (s.dpId.map fun d => hexNumeral d.toNat),
    orDash (s.status.map SwitchStatus.name), countText s.changes.count, reloadText s.reloads,
    countText v.ports.size, v.route.state.name]

def switchesReport (v : SwitchesView) : String :=
  headline v.summary ++
    Grid.text ⟨["Switch", "DP ID", "State", "Changes", "Config", "Ports", "Root path"],
      v.switches.values.map switchRow⟩

def linkRow (l : String × TrackedLink) : List String :=
  [l.1, l.2.state.name, countText l.2.changes.count]

def memberRow (m : String × EgressMember) : List String :=
  [m.1, m.2.health.name, orDash (m.2.state.map LacpState.name), orDash (m.2.role.map LacpRole.name)]

def vlanRow (v : UInt16 × VlanCounters) : List String :=
  [countText v.1.toNat, Decimal.fixed 0 v.2.packets, Decimal.fixed 1 v.2.rate,
    if v.2.flooding then "true" else "false"]

def egressReport (v : EgressView) : String :=
  "\nEgress: " ++ headline v.summary ++
    Grid.text ⟨["Member", "Health", "LACP", "Role"], v.members.toList.map memberRow⟩

def vlanReport (vlans : Table UInt16 VlanCounters) : String :=
  "\n" ++ Grid.text ⟨["VLAN", "Packets", "Rate (pps)", "Flooding"], vlans.toList.map vlanRow⟩

def dataplaneReport (v : DataplaneView) : String :=
  (summaryGrid [summaryRow "dataplane" v.summary]).text ++
    "\nStack root: " ++ orDash v.topology.applied.root ++
    (if v.topology.staged.isSome then " (update pending)" else "") ++ "\n" ++
    Grid.text ⟨["Link", "State", "Changes"], v.links.toList.map linkRow⟩ ++
    (v.egress.elim "" egressReport) ++
    (if v.vlans.isEmpty then "" else vlanReport v.vlans)

def hostRow (h : Mac × HostView) : List String :=
  let (mac, v) := h
  [mac.text, orDash (v.access.map Endpoint.switch), portText (v.access.map Endpoint.port),
    orDash (v.host.vid.map fun n => numeral n.toNat), join ", " v.host.ips.keys,
    orDash (v.host.authorization.bind Authorization.access)]

def hostsReport (hosts : Table Mac HostView) : String :=
  Grid.text ⟨["MAC", "Switch", "Port", "VLAN", "IPs", "Access"], hosts.toList.map hostRow⟩

def hopRow (h : Hop × Nat) : List String :=
  [numeral h.2, h.1.switch, portText h.1.inPort, portText h.1.outPort]

def routeReport (r : Route) : String :=
  r.state.name ++ (r.fault.elim "" fun f => ": " ++ f.message) ++ "\n" ++
    Grid.text ⟨["#", "Switch", "In", "Out"], r.hops.zipIdx.map hopRow⟩

def hostRouteReport (r : HostRoute) : String :=
  orDash r.srcIp ++ " -> " ++ orDash r.dstIp ++ "\n" ++ routeReport r.route

end Fabric.Cli
