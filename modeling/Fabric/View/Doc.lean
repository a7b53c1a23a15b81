import Fabric.Document
import Fabric.View

/-! Views as documents. A missing port, detail or time of a last change is left out; any other
value that is missing is shown as null. -/

namespace Fabric

def Doc.ofPort (p : UInt32) : Doc := .number p.toNat

def Doc.byText {ν : Type} (f : ν → Doc) (t : Table String ν) : Doc :=
  .fields (t.toList.map fun (k, v) => (k, f v))

namespace Summary

def members (s : Summary) : List (String × Doc) :=
  [("state", .text s.state.name), ("detail", .text s.detail),
    ("change_count", .number s.changes.count)] ++ Doc.maybe "last_change" .ofInstant s.changes.last

def doc (s : Summary) : Doc := .fields s.members

end Summary

namespace Route

def state (r : Route) : State := if r.fault.isNone then .healthy else .broken

def hopDoc (h : Hop) : Doc :=
  .fields ([("switch", .text h.switch)] ++ Doc.maybe "in" .ofPort h.inPort ++
    Doc.maybe "out" .ofPort h.outPort)

def members (r : Route) : List (String × Doc) :=
  [("path_state", .text r.state.name)] ++
    Doc.maybe "detail" (fun f => .text (RouteFault.message f)) r.fault ++
    [("path", .list (r.hops.map hopDoc))]

def doc (r : Route) : Doc := .fields r.members

end Route

def HostRoute.doc (r : HostRoute) : Doc :=
  .fields ([("src_ip", .ofOption .text r.srcIp), ("dst_ip", .ofOption .text r.dstIp)] ++
    r.route.members)

def PortView.doc (v : PortView) : Doc :=
  .fields [
    ("status_up", .ofOption .truth v.port.up),
    ("status_count", .number v.port.changes.count),
    ("status_timestamp", .ofOption .ofInstant v.port.changes.last),
    ("port_type", .ofOption (fun i => .text (Interface.portType i).name) v.interface),
    ("description", .ofOption .text (v.interface.bind (·.description))),
    ("stack_peer", .ofOption (fun e => .text (Endpoint.text e)) (v.interface.bind (·.stackPeer))),
    ("stack_state", .ofOption (fun s => .text (StackState.name s)) v.port.stack),
    ("learned_macs", .ofTexts (v.port.macs.keys.map (·.text)))]

def SwitchView.doc (v : SwitchView) : Doc :=
  let s := v.switch
  .fields [
    ("name", .text s.name),
    ("dp_id", .ofOption (fun d => .number d.toNat) s.dpId),
    ("description", .ofOption .text v.description),
    ("switch_state", .ofOption (fun x => .text (SwitchStatus.name x)) s.status),
    ("switch_state_change_count", .number s.changes.count),
    ("switch_state_last_change", .ofOption .ofInstant s.changes.last),
    ("config_change_count", .number s.reloads.count),
    ("config_change_type", .ofOption .text s.reloads.kind),
    ("config_change_timestamp", .ofOption .ofInstant s.reloads.last),
    ("ports", .record (v.ports.toList.map fun (p, x) => (.number p.toNat, x.doc))),
    ("root_path", v.route.doc)]

def SwitchesView.doc (v : SwitchesView) : Doc :=
  .fields (v.summary.members ++ [("switches", Doc.byText SwitchView.doc v.switches)])

def TrackedLink.doc (l : TrackedLink) : Doc :=
  .fields [
    ("switch_a", .text l.link.a.switch), ("port_a", .ofPort l.link.a.port),
    ("switch_b", .text l.link.b.switch), ("port_b", .ofPort l.link.b.port),
    ("link_state", .text l.state.name),
    ("change_count", .number l.changes.count),
    ("last_change", .ofOption .ofInstant l.changes.last)]

def TopologyStatus.doc (t : TopologyStatus) : Doc :=
  .fields [
    ("stack_root", .ofOption .text t.applied.root),
    ("root_hop_ports", Doc.byText .ofPort t.applied.rootHops),
    ("links_change_count", .number t.linkChanges.count),
    ("links_last_change", .ofOption .ofInstant t.linkChanges.last),
    ("topology_change_count", .number t.rootChanges.count),
    ("topology_last_change", .ofOption .ofInstant t.rootChanges.last),
    ("update_pending", .truth t.staged.isSome)]

def EgressMember.doc (m : EgressMember) : Doc :=
  .fields [
    ("lacp_state", .ofOption (fun s => .text (LacpState.name s)) m.state),
    ("lacp_role", .ofOption (fun r => .text (LacpRole.name r)) m.role),
    ("health", .text m.health.name),
    ("change_count", .number m.changes.count)]

def EgressView.doc (v : EgressView) : Doc :=
  .fields (v.summary.members ++ [("members", Doc.byText EgressMember.doc v.members)])

def VlanCounters.doc (c : VlanCounters) : Doc :=
  .fields [("packet_count", .float c.packets), ("packet_rate", .float c.rate),
    ("over_threshold", .truth c.flooding)]

def DataplaneView.doc (v : DataplaneView) : Doc :=
  .fields (v.summary.members ++ [
    ("switches", Doc.byText (Doc.ofOption fun x => .text (SwitchStatus.name x)) v.switches),
    ("stack_links", Doc.byText TrackedLink.doc v.links),
    ("topology", v.topology.doc),
    ("egress", .ofOption EgressView.doc v.egress),
    ("vlans", .record (v.vlans.toList.map fun (n, c) => (.number n.toNat, c.doc)))])

def Authorization.doc (a : Authorization) : Doc :=
  .fields [("access", .ofOption .text a.access), ("segment", .ofOption .text a.segment),
    ("role", .ofOption .text a.role)]

def Sighting.doc (s : Sighting) : Doc :=
  .fields [("port", .ofPort s.port), ("learned_at", .ofInstant s.learnedAt)]

def HostView.doc (v : HostView) : Doc :=
  .fields [
    ("access_switch", .ofOption (fun e => .text e.switch) v.access),
    ("access_port", .ofOption (fun e => .ofPort e.port) v.access),
    ("ips", .ofTexts v.host.ips.keys),
    ("vid", .ofOption (fun n => .number n.toNat) v.host.vid),
    ("auth", .ofOption Authorization.doc v.host.authorization),
    ("switches", Doc.byText Sighting.doc v.host.sightings)]

/-- All hosts by their MAC addresses. -/
def hostsDoc (hosts : Table Mac HostView) : Doc :=
  .fields [("hosts", .fields (hosts.toList.map fun (m, v) => (m.text, v.doc)))]

end Fabric
