import Fabric.Engine
import Fabric.Feed.Progress
import Fabric.Scrape

/-! The monitor: an engine that is restored from the metrics endpoint and then follows the feed.
A gap in the feed means that the state has to be restored again. The endpoint is a tape of
replies, one for each request. -/

namespace Fabric

/-- What a monitor meets outside: the reply to each request, and the time. -/
structure Surroundings where
  tape : Nat → Reply
  now : Instant

structure Monitor where
  config : MonitorConfig
  engine : Engine
  feed : Feed
  /-- How many requests have been made. -/
  requests : Nat
  notices : List Notice

namespace Monitor

def start (config : MonitorConfig) (engine : Engine) : Monitor :=
  ⟨config, engine, .fresh config.feed, 0, []⟩

def withEngine (m : Monitor) (r : Engine × List Notice) : Monitor :=
  { m with engine := r.1, notices := m.notices ++ r.2 }

/-- Fetches the metrics and restores the engine from them. The engine is ready if and only if
that succeeds. -/
def restore (m : Monitor) (s : Surroundings) : Monitor × Except Fault UInt64 :=
  let fetch := Scrape.retry s.tape m.requests m.engine.neededMetrics m.config.scrapeRetries
  let m := { m with requests := m.requests + fetch.requests }
  match fetch.result with
  | .error e => ({ m with engine := m.engine.setReadiness (.lost (some e.message)) }, .error e)
  | .ok snapshot =>
    let (engine, notices, result) := m.engine.restore s.now snapshot
    let m := m.withEngine (engine, notices)
    match result with
    | .error e => (m, .error e)
    | .ok horizon => ({ m with engine := m.engine.setReadiness .ready }, .ok horizon)

theorem restore_feed (m : Monitor) (s : Surroundings) : (m.restore s).1.feed = m.feed := by
  unfold restore
  dsimp only
  split
  · rfl
  · split <;> rfl

def dispatch (m : Monitor) (e : Event) : Monitor := m.withEngine (m.engine.dispatch e)

def setHorizon (m : Monitor) (id : UInt64) : Monitor := { m with feed := m.feed.setHorizon id }

/-- Dispatches what the feed delivers until it has nothing more, which is no fault, or the state
cannot be followed any longer. -/
def follow (s : Surroundings) (m : Monitor) : Monitor × Option Fault :=
  match _h : m.feed.poll with
  | (feed, .event e) => follow s (dispatch { m with feed := feed } e)
  | (feed, .fault (.gap _ _)) =>
    match _hr : restore { m with feed := feed } s with
    | (n, .ok horizon) => follow s (n.setHorizon horizon)
    | (n, .error e) => (n, some e)
  | (feed, .fault e) => ({ m with feed := feed }, some e)
  | (feed, .idle) => ({ m with feed := feed }, none)
termination_by m.feed.stock
decreasing_by
  · exact Feed.poll_event_less _h
  · have hf := restore_feed { m with feed := feed } s
    rw [_hr] at hf
    show Feed.Less n.feed.stock _
    rw [hf]
    exact Feed.poll_gap_less _h

/-- Connects, restores, and starts to follow from where the metrics end. -/
def connect (m : Monitor) (s : Surroundings) (site : Feed.Site) : Monitor × Option Fault :=
  match m.feed.connect site with
  | (feed, .error e) => ({ m with feed := feed }, some e)
  | (feed, .ok ()) =>
    match restore { m with feed := feed } s with
    | (m, .error e) => (m, some e)
    | (m, .ok horizon) => (m.setHorizon horizon, none)

def receive (m : Monitor) (bytes : List UInt8) : Monitor := { m with feed := m.feed.receive bytes }

def hangUp (m : Monitor) : Monitor := { m with feed := m.feed.hangUp }

/-- The records that come until the controller goes away. -/
def session (m : Monitor) (s : Surroundings) (bytes : List UInt8) : Monitor × Option Fault :=
  (m.receive bytes).hangUp.follow s

/-- The regular work beside the events: applies a staged topology when it is due, and samples the
packet counts of the VLANs. -/
def heartbeat (m : Monitor) (s : Surroundings) : Monitor :=
  let metric := m.engine.config.vlanMetric
  let fetch := Scrape.once s.tape m.requests [metric]
  let m := { m with
    engine := (m.engine.heartbeat s.now).1
    requests := m.requests + fetch.requests }
  match fetch.result with
  | .error _ => m
  | .ok snapshot =>
    match snapshot.get? metric with
    | some samples => m.withEngine (m.engine.update s.now (.vlanSamples samples))
    | none => m

end Monitor
end Fabric
