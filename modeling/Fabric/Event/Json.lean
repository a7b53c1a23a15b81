import Fabric.Event
import Fabric.Source

/-! Event records as JSON. A member that is absent is left out when a record is written, and
reading takes a missing member, or null, for an absent one. -/

namespace Fabric

open Source (required optional defaulted)

/-- The members that are present. -/
def Json.ofPresent (ms : List (String × Option Json)) : Json :=
  .ofMembers (ms.filterMap fun (k, v) => v.map (k, ·))

def Json.someNat (n : Nat) : Option Json := some (.ofNat n)

def Json.someText (s : String) : Option Json := some (.ofText s)

namespace PortChange

def toJson (c : PortChange) : Json :=
  .ofPresent [("port_no", Json.someNat c.port.toNat), ("status", some (.truth c.status)),
    ("reason", Json.someText c.reason)]

def ofJson? (j : Json) : Option PortChange := do
  let r ← j.record? ["port_no", "status", "reason"]
  let port ← required r "port_no" Json.u32?
  let status ← required r "status" Json.truth?
  let reason ← defaulted r "reason" "" Json.text?
  some ⟨port, status, reason⟩

end PortChange

namespace Learn

def toJson (l : Learn) : Json :=
  .ofPresent [("port_no", Json.someNat l.port.toNat), ("eth_src", Json.someText l.mac),
    ("vid", l.vid.map fun v => .ofNat v.toNat), ("l3_src_ip", l.ip.map .ofText)]

def ofJson? (j : Json) : Option Learn := do
  let r ← j.record? ["port_no", "eth_src", "vid", "l3_src_ip"]
  let port ← required r "port_no" Json.u32?
  let mac ← required r "eth_src" Json.text?
  let vid ← optional r "vid" Json.u16?
  let ip ← optional r "l3_src_ip" Json.text?
  some ⟨port, mac, vid, ip⟩

end Learn

namespace Expiry

def toJson (x : Expiry) : Json :=
  .ofPresent [("port_no", Json.someNat x.port.toNat), ("eth_src", Json.someText x.mac),
    ("vid", x.vid.map fun v => .ofNat v.toNat)]

def ofJson? (j : Json) : Option Expiry := do
  let r ← j.record? ["port_no", "eth_src", "vid"]
  let port ← required r "port_no" Json.u32?
  let mac ← required r "eth_src" Json.text?
  let vid ← optional r "vid" Json.u16?
  some ⟨port, mac, vid⟩

end Expiry

namespace LagChange

def toJson (l : LagChange) : Json :=
  .ofPresent [("port_no", Json.someNat l.port.toNat), ("state", some (.ofInt l.state)),
    ("role", l.role.map .ofInt)]

def ofJson? (j : Json) : Option LagChange := do
  let r ← j.record? ["port_no", "state", "role"]
  let port ← required r "port_no" Json.u32?
  let state ← required r "state" Json.integer?
  let role ← optional r "role" Json.integer?
  some ⟨port, state, role⟩

end LagChange

namespace StackChange

def toJson (s : StackChange) : Json :=
  .ofPresent [("port", Json.someNat s.port.toNat), ("state", some (.ofInt s.state))]

def ofJson? (j : Json) : Option StackChange := do
  let r ← j.record? ["port", "state"]
  let port ← required r "port" Json.u32?
  let state ← required r "state" Json.integer?
  some ⟨port, state⟩

end StackChange

namespace AnnouncedLink

def toJson (l : AnnouncedLink) : Json :=
  let ports := Json.ofPresent [("dp_a", Json.someText l.switchA), ("port_a", Json.someText l.portA),
    ("dp_z", Json.someText l.switchZ), ("port_z", Json.someText l.portZ)]
  .ofPresent [("key", l.key.map .ofText), ("port_map", some ports)]

def ofJson? (j : Json) : Option AnnouncedLink := do
  let r ← j.record? ["key", "port_map"]
  let key ← optional r "key" Json.text?
  let ports ← required r "port_map" (Json.record? ["dp_a", "port_a", "dp_z", "port_z"])
  let switchA ← required ports "dp_a" Json.text?
  let portA ← required ports "port_a" Json.text?
  let switchZ ← required ports "dp_z" Json.text?
  let portZ ← required ports "port_z" Json.text?
  some ⟨key, switchA, portA, switchZ, portZ⟩

end AnnouncedLink

namespace Announcement

def hopToJson (p : Option UInt32) : Json :=
  .ofPresent [("root_hop_port", p.map fun p => .ofNat p.toNat)]

def hopOfJson? (j : Json) : Option (Option UInt32) := do
  let r ← j.record? ["root_hop_port"]
  optional r "root_hop_port" Json.u32?

def graphOfJson? (j : Json) : Option (List AnnouncedLink) := do
  let r ← j.record? ["links"]
  defaulted r "links" [] (Json.items? AnnouncedLink.ofJson?)

def toJson (a : Announcement) : Json :=
  .ofPresent [("stack_root", Json.someText a.root),
    ("graph", some (.ofPresent [("links", some (.list (a.links.map AnnouncedLink.toJson)))])),
    ("dps", some (.ofMembers (a.rootHops.toList.map fun (s, p) => (s, hopToJson p))))]

def ofJson? (j : Json) : Option Announcement := do
  let r ← j.record? ["stack_root", "graph", "dps"]
  let root ← defaulted r "stack_root" "" Json.text?
  let links ← defaulted r "graph" [] graphOfJson?
  let hops ← defaulted r "dps" ∅ (Json.table? Json.denoted? hopOfJson?)
  some ⟨root, links, hops⟩

end Announcement

namespace ConfigHashes

def toJson (h : ConfigHashes) : Json :=
  .ofPresent [("config_files", Json.someText h.files), ("hashes", Json.someText h.hashes), ("error", Json.someText h.error)]

def ofJson? (j : Json) : Option ConfigHashes := do
  let r ← j.record? ["config_files", "hashes", "error"]
  let files ← defaulted r "config_files" "" Json.text?
  let hashes ← defaulted r "hashes" "" Json.text?
  let error ← defaulted r "error" "" Json.text?
  some ⟨files, hashes, error⟩

end ConfigHashes

namespace ConfigChange

def toJson (c : ConfigChange) : Json :=
  .ofPresent [("restart_type", c.restart.map .ofText),
    ("config_hash_info", c.hashes.map ConfigHashes.toJson)]

def ofJson? (j : Json) : Option ConfigChange := do
  let r ← j.record? ["restart_type", "config_hash_info"]
  let restart ← optional r "restart_type" Json.text?
  let hashes ← optional r "config_hash_info" ConfigHashes.ofJson?
  some ⟨restart, hashes⟩

end ConfigChange

namespace Event

def connectionToJson (reason : String) : Json := .ofPresent [("reason", Json.someText reason)]

def connectionOfJson? (j : Json) : Option String := do
  let r ← j.record? ["reason"]
  required r "reason" Json.text?

def portsToJson (ports : Table UInt32 Bool) : Json :=
  .ofMembers (ports.toList.map fun (p, up) => (Text.numeral p.toNat, .truth up))

def toJson (e : Event) : Json :=
  .ofPresent [
    ("version", e.version.map fun n => .ofNat n.toNat),
    ("time", some (.ofFloat e.time)),
    ("dp_name", e.switch.map .ofText),
    ("dp_id", e.dpId.map fun n => .ofNat n.toNat),
    ("event_id", e.id.map fun n => .ofNat n.toNat),
    ("debounced", e.debounced.map .truth),
    ("PORT_CHANGE", e.portChange.map PortChange.toJson),
    ("PORTS_STATUS", e.portsStatus.map portsToJson),
    ("L2_LEARN", e.learn.map Learn.toJson),
    ("L2_LEARNED_MACS", e.learnedMacs.map fun ls => .list (ls.map Learn.toJson)),
    ("L2_EXPIRE", e.expiry.map Expiry.toJson),
    ("LAG_CHANGE", e.lagChange.map LagChange.toJson),
    ("STACK_STATE", e.stackChange.map StackChange.toJson),
    ("STACK_TOPO_CHANGE", e.announcement.map Announcement.toJson),
    ("CONFIG_CHANGE", e.configChange.map ConfigChange.toJson),
    ("DP_CHANGE", e.connection.map connectionToJson)]

def ofJson? (j : Json) : Option Event := do
  let r ← j.record? (["version", "time", "dp_name", "dp_id", "event_id", "debounced"] ++
    EventKind.all.map EventKind.name)
  let version ← optional r "version" Json.u32?
  let time ← defaulted r "time" 0 Json.float?
  let switch ← optional r "dp_name" Json.text?
  let dpId ← optional r "dp_id" Json.u64?
  let id ← optional r "event_id" Json.u64?
  let debounced ← optional r "debounced" Json.truth?
  let portChange ← optional r "PORT_CHANGE" PortChange.ofJson?
  let portsStatus ← optional r "PORTS_STATUS" (Json.table? Json.u32Key? Json.truth?)
  let learn ← optional r "L2_LEARN" Learn.ofJson?
  let learnedMacs ← optional r "L2_LEARNED_MACS" (Json.items? Learn.ofJson?)
  let expiry ← optional r "L2_EXPIRE" Expiry.ofJson?
  let lagChange ← optional r "LAG_CHANGE" LagChange.ofJson?
  let stackChange ← optional r "STACK_STATE" StackChange.ofJson?
  let announcement ← optional r "STACK_TOPO_CHANGE" Announcement.ofJson?
  let configChange ← optional r "CONFIG_CHANGE" ConfigChange.ofJson?
  let connection ← optional r "DP_CHANGE" connectionOfJson?
  some { version, time, switch, dpId, id, debounced, portChange, portsStatus, learn, learnedMacs,
         expiry, lagChange, stackChange, announcement, configChange, connection }

/-- The record that a line of bytes holds. -/
def ofBytes? (bytes : List UInt8) : Option Event := (Json.ofBytes? bytes).bind ofJson?

end Event
end Fabric
