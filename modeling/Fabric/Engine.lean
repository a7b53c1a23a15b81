import Fabric.Network.Restore

/-! The engine: the network under a configuration, kept up to date by events, announcements and
restores. It answers questions only while it is ready. -/

namespace Fabric

/-- A change that is reported of the network. -/
inductive Update where
  | portState (place : Endpoint) (up : Bool)
  | learn (place : Endpoint) (mac : Mac) (traits : Network.Traits)
  | expire (place : Endpoint) (mac : Mac)
  | lag (place : Endpoint) (state : Option LacpState) (role : Option LacpRole)
  | stackState (place : Endpoint) (code : Int)
  | stage (t : Topology)
  | connection (switch : String) (dpId : Option UInt64) (connected : Bool)
  | reload (switch : String) (dpId : Option UInt64) (kind hashes : Option String)
  | vlanSamples (samples : List Sample)

def Update.apply (config : EngineConfig) (w : Wiring) (now : Instant) :
    Update → Network → Outcome
  | portState e up, n => n.portState w now e up
  | learn e mac t, n => n.learn w now e mac t
  | expire e mac, n => n.expire w e mac
  | lag e state role, n => .quiet (n.lag now e state role)
  | stackState e code, n => .quiet (n.stackState w now e code)
  | stage t, n => .quiet (n.stage now t)
  | connection s dpId connected, n => .quiet (n.connection now s dpId connected)
  | reload s dpId kind hashes, n => .quiet (n.reload now s dpId kind hashes)
  | vlanSamples l, n => .quiet (n.vlanSamples config.threshold now l)

def Learn.update (switch : String) (l : Learn) : Update :=
  .learn ⟨switch, l.port⟩ (.ofText l.mac) ⟨l.ip, l.vid⟩

/-- The updates that a report asks for; a report on many ports or hosts asks for one each. -/
def Report.updates : Report → List Update
  | portState s _ p up => [.portState ⟨s, p⟩ up]
  | portsStatus s _ ps => ps.toList.map fun (p, up) => .portState ⟨s, p⟩ up
  | learn s l => [l.update s]
  | learnedMacs s ls => ls.map (Learn.update s)
  | expiry s p mac => [.expire ⟨s, p⟩ (.ofText mac)]
  | lag s l => [.lag ⟨s, l.port⟩ (some (.ofCode l.state)) (l.role.map .ofCode)]
  | stack s x => [.stackState ⟨s, x.port⟩ x.state]
  | topology a => [.stage a.topology]
  | reload s dpId kind hashes => [.reload s dpId kind hashes]
  | connection s dpId connected => [.connection s dpId connected]

/-- The first thing that an event says; the others do not count. -/
def Event.updates (e : Event) : List Update := (e.reports.head?.map Report.updates).getD []

inductive Readiness where
  | ready
  | unready (detail : String)
deriving DecidableEq, Repr

def Readiness.notRestored : String := "State not restored"

/-- Not ready, perhaps for a reason. -/
def Readiness.lost (reason : Option String) : Readiness :=
  .unready (match reason with
    | some r => notRestored ++ ": " ++ r
    | none => notRestored)

structure Engine where
  config : EngineConfig
  wiring : Wiring
  network : Network
  readiness : Readiness

namespace Engine

def fresh (config : EngineConfig) : Engine := ⟨config, .empty, .empty, .lost none⟩

def isReady (g : Engine) : Bool := g.readiness = .ready

def setReadiness (g : Engine) (r : Readiness) : Engine := { g with readiness := r }

def updateAll (g : Engine) (now : Instant) (us : List Update) : Engine × List Notice :=
  let o := Outcome.forEach us (Update.apply g.config g.wiring now) g.network
  ({ g with network := o.network }, o.notices)

def update (g : Engine) (now : Instant) (u : Update) : Engine × List Notice := g.updateAll now [u]

/-- Takes in an event, at the time that it states. -/
def dispatch (g : Engine) (e : Event) : Engine × List Notice :=
  g.updateAll (.ofSeconds e.time) e.updates

/-- Takes in a new static configuration. -/
def configure (g : Engine) (now : Instant) (w : Wiring) : Engine :=
  { g with wiring := w, network := g.network.refreshLinks w now }

def authorize (g : Engine) (mac : Mac) (a : Authorization) : Except Fault Engine :=
  (g.network.authorize mac a).map fun n => { g with network := n }

/-- Applies a staged topology when it is due; tells whether anything changed. -/
def heartbeat (g : Engine) (now : Instant) : Engine × Bool :=
  let (n, changed) := g.network.heartbeat g.wiring g.config.window now
  ({ g with network := n }, changed)

/-- Restores the network from a snapshot. After a failure the engine is not ready. -/
def restore (g : Engine) (now : Instant) (s : Snapshot) :
    Engine × List Notice × Except Fault UInt64 :=
  let (o, result) := g.network.restore g.config g.wiring now s
  let readiness := match result with
    | .ok _ => g.readiness
    | .error e => .lost (some e.message)
  ({ g with network := o.network, readiness }, o.notices, result)

/-- The metrics that a restore needs. -/
def neededMetrics (g : Engine) : List String := Network.Family.metrics g.config.vlanMetric

end Engine

/-! ## Runs -/

/-- Whatever can be done to an engine. -/
inductive Operation where
  | update (now : Instant) (u : Update)
  | dispatch (e : Event)
  | configure (now : Instant) (w : Wiring)
  | authorize (mac : Mac) (a : Authorization)
  | heartbeat (now : Instant)
  | restore (now : Instant) (s : Snapshot)
  | setReadiness (r : Readiness)

namespace Engine

def perform (g : Engine) : Operation → Engine × List Notice
  | .update now u => g.update now u
  | .dispatch e => g.dispatch e
  | .configure now w => (g.configure now w, [])
  | .authorize mac a =>
    match g.authorize mac a with
    | .ok g => (g, [])
    | .error _ => (g, [])
  | .heartbeat now => ((g.heartbeat now).1, [])
  | .restore now s =>
    let (g, notices, _) := g.restore now s
    (g, notices)
  | .setReadiness r => (g.setReadiness r, [])

/-- The engine after a run of operations, and all notices on the way. -/
def run (g : Engine) (ops : List Operation) : Engine × List Notice :=
  ops.foldl (fun (g, told) op =>
    let (g, notices) := g.perform op
    (g, told ++ notices)) (g, [])

end Engine
end Fabric
