import Fabric.Config
import Fabric.Network.Devices
import Fabric.Network.Hosts
import Fabric.Network.Links

/-! Restoring the network from exported metrics. Each family of samples goes through the updates
that live events go through, in a fixed order: ports before hosts, so that a port reported down
does not lose the hosts restored on it, and the topology last, when every stack state is known.
A sample that makes no sense is passed over. -/

namespace Fabric.Network

open Fabric.Text

inductive Family where
  | dpStatus
  | portStatus
  | stackState
  | lacpState
  | lacpRole
  | learnedPort
  | coldReloads
  | warmReloads
  | rootHop
  | stackRoot
  | vlanPackets
  | eventId
deriving DecidableEq, Repr

namespace Family

def all : List Family :=
  [dpStatus, portStatus, stackState, lacpState, lacpRole, learnedPort, coldReloads, warmReloads,
    rootHop, stackRoot, vlanPackets, eventId]

/-- The metric that the family is exported as; that of the packet counts is configured. -/
def metric (vlanMetric : String) : Family → String
  | dpStatus => "dp_status"
  | portStatus => "port_status"
  | stackState => "port_stack_state"
  | lacpState => "port_lacp_state"
  | lacpRole => "port_lacp_role"
  | learnedPort => "learned_l2_port"
  | coldReloads => "faucet_config_reload_cold"
  | warmReloads => "faucet_config_reload_warm"
  | rootHop => "dp_root_hop_port"
  | stackRoot => "faucet_stack_root_dpid"
  | vlanPackets => vlanMetric
  | eventId => "faucet_event_id"

def metrics (vlanMetric : String) : List String := all.map (metric vlanMetric)

end Family

/-! ## Reading samples -/

/-- The whole number that a float is, if it is one. -/
def whole? (x : Float) : Option Int :=
  match Decimal.magnitude x with
  | .finite m q =>
    if m * Nat.pow 2 q.toNat % Nat.pow 2 (-q).toNat = 0 then
      let n : Int := m * Nat.pow 2 q.toNat / Nat.pow 2 (-q).toNat
      some (if Decimal.isNegative x then -n else n)
    else none
  | _ => none

/-- A count or an id; one past the 64-bit range counts as the greatest. -/
def count? (x : Float) : Option UInt64 :=
  (whole? x).bind fun n => if 0 ≤ n then some (min n.toNat maxU64).toUInt64 else none

/-- A state code, clamped to the signed 64-bit range. -/
def code? (x : Float) : Option Int :=
  (whole? x).map fun n => max (-(maxI64 + 1 : Int)) (min n maxI64)

def portNumber? (x : Float) : Option UInt32 :=
  (count? x).bind fun n => if n.toNat ≤ maxU32 then some n.toNat.toUInt32 else none

/-- A datapath id is written in hexadecimal after `0x`, or in decimal. -/
def dpId? (s : String) : Option UInt64 :=
  match s.toList with
  | '0' :: 'x' :: r | '0' :: 'X' :: r => (unsigned? 16 maxU64 r).map Nat.toUInt64
  | cs => u64? cs

def sampleDpId? (s : Sample) : Option UInt64 := (s.label? "dp_id").bind dpId?

def sampleSwitch? (s : Sample) : Option String := s.label? "dp_name"

def samplePlace? (s : Sample) : Option Endpoint := do
  let switch ← sampleSwitch? s
  let port ← s.label? "port"
  some ⟨switch, ← u32? port.toList⟩

/-! ## Rebuilding -/

/-- What makes sense only once every sample has been read. -/
structure Gathered where
  lacp : Table Endpoint (Option LacpState × Option LacpRole)
  rootId : Option UInt64
  rootHops : Table String UInt32
  vlanSamples : List Sample
  lastEvent : Option UInt64

structure Rebuild where
  outcome : Outcome
  gathered : Gathered

namespace Rebuild

def start : Rebuild := ⟨.quiet .empty, ⟨∅, none, ∅, [], none⟩⟩

def live (r : Rebuild) (f : Network → Outcome) : Rebuild := { r with outcome := r.outcome.andThen f }

def quietly (r : Rebuild) (f : Network → Network) : Rebuild := r.live fun n => .quiet (f n)

def gather (r : Rebuild) (f : Gathered → Gathered) : Rebuild :=
  { r with gathered := f r.gathered }

/-- So many reloads at once; none change nothing. -/
def reloads (now : Instant) (kind : String) (s : Sample) (r : Rebuild) : Option Rebuild := do
  let name ← sampleSwitch? s
  let n ← count? s.value
  if n = 0 then some r
  else some <| r.quietly fun net => net.updateSwitch name fun w =>
    { w with
      dpId := (sampleDpId? s).or w.dpId
      reloads := { w.reloads with count := w.reloads.count + n.toNat, kind := some kind, last := some now } }

/-- Takes in one sample of a family. -/
def take? (w : Wiring) (now : Instant) (f : Family) (s : Sample) (r : Rebuild) : Option Rebuild :=
  match f with
  | .dpStatus => do
    let name ← sampleSwitch? s
    some (r.quietly (connection now name (sampleDpId? s) (s.value > 0)))
  | .portStatus => do
    let e ← samplePlace? s
    some (r.live (portState w now e (s.value > 0)))
  | .stackState => do
    let e ← samplePlace? s
    let code ← code? s.value
    some (r.quietly (Network.stackState w now e code))
  | .lacpState => do
    let e ← samplePlace? s
    let code ← code? s.value
    some (r.gather fun g =>
      { g with lacp := g.lacp.upsert e (none, none) fun x => (some (.ofCode code), x.2) })
  | .lacpRole => do
    let e ← samplePlace? s
    let code ← code? s.value
    some (r.gather fun g =>
      { g with lacp := g.lacp.upsert e (none, none) fun x => (x.1, some (.ofCode code)) })
  | .learnedPort => do
    let name ← sampleSwitch? s
    let mac ← s.label? "eth_src"
    let vid := (s.label? "vid").bind fun v => u16? v.toList
    let port ← portNumber? s.value
    -- port 0 stands for a host that has aged out
    if port = 0 then some r
    else some (r.live (learn w now ⟨name, port⟩ (.ofText mac) ⟨none, vid⟩))
  | .coldReloads => r.reloads now "cold" s
  | .warmReloads => r.reloads now "warm" s
  | .rootHop => do
    let name ← sampleSwitch? s
    let port ← portNumber? s.value
    some (r.gather fun g =>
      if port = 0 then g else { g with rootHops := g.rootHops.insert name port })
  | .stackRoot => do
    let id ← count? s.value
    some (r.gather fun g => if id = 0 then g else { g with rootId := some id })
  | .vlanPackets => some (r.gather fun g => { g with vlanSamples := g.vlanSamples ++ [s] })
  | .eventId => do
    let id ← count? s.value
    some (r.gather fun g => { g with lastEvent := some ((g.lastEvent.getD id) |> max id) })

def take (w : Wiring) (now : Instant) (f : Family) (r : Rebuild) (s : Sample) : Rebuild :=
  (take? w now f s r).getD r

def takeFamily (vlanMetric : String) (w : Wiring) (now : Instant) (snapshot : Snapshot)
    (r : Rebuild) (f : Family) : Rebuild :=
  (snapshot.samples (f.metric vlanMetric)).foldl (take w now f) r

end Rebuild

/-- The name of the switch with that id, as reported or else as configured. -/
def nameOfId? (n : Network) (w : Wiring) (id : UInt64) : Option String :=
  ((n.switches.toList.find? fun e => e.2.dpId = some id).map (·.2.name)).or (w.nameOfId? id)

/-- The topology that the samples show. A configured link is part of it when both ends are up. -/
def restoredTopology (n : Network) (w : Wiring) (g : Gathered) : Topology :=
  { root := g.rootId.bind (n.nameOfId? w)
    rootHops := g.rootHops
    links := w.stackLinks.filter fun l _ => l.ends.all fun e => n.stackState? e = some .up }

/-- What follows the last sample. -/
def settle (config : EngineConfig) (w : Wiring) (now : Instant) (g : Gathered) (n : Network) :
    Network :=
  let n := g.lacp.toList.foldl (fun n (e, state, role) => lag now e state role n) n
  let n := (n.applyTopology w now (n.restoredTopology w g)).1
  vlanSamples config.threshold now g.vlanSamples n

/-- The network that a snapshot shows, and the number of the last event it reflects. The old
network stays only if a whole family is missing. -/
def restore (config : EngineConfig) (w : Wiring) (now : Instant) (snapshot : Snapshot)
    (n : Network) : Outcome × Except Fault UInt64 :=
  match (Family.metrics config.vlanMetric).find? fun m => !snapshot.contains m with
  | some m => (.quiet n, .error (.missingMetric m))
  | none =>
    let r := Family.all.foldl (Rebuild.takeFamily config.vlanMetric w now snapshot) .start
    let o := r.outcome.andThen fun n => .quiet (settle config w now r.gathered n)
    (o, match r.gathered.lastEvent with
      | some id => .ok id
      | none => .error (.badSample "faucet_event_id" "no samples"))

end Fabric.Network
