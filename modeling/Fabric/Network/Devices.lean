import Fabric.Metrics
import Fabric.Network

/-! Switches, egress members and VLAN counters. -/

namespace Fabric.Network

def connection (now : Instant) (name : String) (dpId : Option UInt64) (connected : Bool)
    (n : Network) : Network :=
  let status : SwitchStatus := if connected then .connected else .down
  n.updateSwitch name fun s =>
    let s := { s with dpId := dpId.or s.dpId }
    if s.status = some status then s
    else { s with status := some status, changes := s.changes.note now }

/-- A switch took in a new configuration. Hashes that are not reported stay as they were. -/
def reload (now : Instant) (name : String) (dpId : Option UInt64) (kind hashes : Option String)
    (n : Network) : Network :=
  n.updateSwitch name fun s =>
    { s with
      dpId := dpId.or s.dpId
      reloads := ⟨s.reloads.count + 1, kind, some now, hashes.or s.reloads.hashes⟩ }

/-- What is not reported of an egress member stays as it was. -/
def lag (now : Instant) (e : Endpoint) (state : Option LacpState) (role : Option LacpRole)
    (n : Network) : Network :=
  { n with egress := n.egress.upsert e .silent fun m =>
      let state := state.or m.state
      let role := role.or m.role
      if m.state = state ∧ m.role = role then m
      else { state, role, changes := m.changes.note now } }

def vlanOf? (s : Sample) : Option UInt16 := (s.label? "vlan").bind fun v => Text.u16? v.toList

def vlanSample (threshold : Option Float) (now : Instant) (vlans : Table UInt16 VlanCounters)
    (s : Sample) : Table UInt16 VlanCounters :=
  match vlanOf? s with
  | none => vlans
  | some vid =>
    vlans.insert vid <| match vlans.get? vid with
      | some c => c.update s.value now threshold
      | none => .first s.value now

/-- Takes in packet counts; a sample without a usable VLAN counts for nothing. -/
def vlanSamples (threshold : Option Float) (now : Instant) (samples : List Sample) (n : Network) :
    Network :=
  { n with vlans := samples.foldl (vlanSample threshold now) n.vlans }

end Fabric.Network
