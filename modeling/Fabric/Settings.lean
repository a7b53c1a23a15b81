import Fabric.Config
import Fabric.Document
import Fabric.Source

/-! Settings: the flat table of knobs a user may turn, and the checks under which it configures a
monitor. -/

namespace Fabric

open Fabric.Text

structure Settings where
  eventSock : String
  connectRetries : UInt32
  connectBackoffMs : UInt64
  portDebounceSecs : UInt64
  varzUrl : String
  varzRetries : UInt32
  varzRetryDelayMs : UInt64
  coalesceWindowSecs : UInt64
  heartbeatSecs : UInt64
  vlanPacketRateThreshold : Option Float
  vlanMetric : String
  faucetConfig : String

/-- A setting that cannot be used, and why. -/
structure SettingFault where
  field : String
  reason : String
deriving DecidableEq, Repr

def SettingFault.message (f : SettingFault) : String := "invalid " ++ f.field ++ ": " ++ f.reason

namespace Settings

def usual : Settings :=
  { eventSock := "/var/run/faucet/faucet.sock"
    connectRetries := 10
    connectBackoffMs := 1000
    portDebounceSecs := 5
    varzUrl := "http://localhost:9302/metrics"
    varzRetries := 10
    varzRetryDelayMs := 1000
    coalesceWindowSecs := 2
    heartbeatSecs := 1
    vlanPacketRateThreshold := none
    vlanMetric := "vlan_packet_count"
    faucetConfig := "/etc/faucet/faucet.yaml" }

/-! ## Reading -/

def names : List String :=
  ["event_sock", "connect_retries", "connect_backoff_ms", "port_debounce_secs", "varz_url",
    "varz_retries", "varz_retry_delay_ms", "coalesce_window_secs", "heartbeat_secs",
    "vlan_packet_rate_threshold", "vlan_metric", "faucet_config"]

section Reading
open Source

/-- What is not set stays as usual. -/
def read? {ν : Type} [Source ν] (v : ν) : Option Settings := do
  let r ← record? names v
  let eventSock ← defaulted r "event_sock" usual.eventSock text?
  let connectRetries ← defaulted r "connect_retries" usual.connectRetries u32?
  let connectBackoffMs ← defaulted r "connect_backoff_ms" usual.connectBackoffMs u64?
  let portDebounceSecs ← defaulted r "port_debounce_secs" usual.portDebounceSecs u64?
  let varzUrl ← defaulted r "varz_url" usual.varzUrl text?
  let varzRetries ← defaulted r "varz_retries" usual.varzRetries u32?
  let varzRetryDelayMs ← defaulted r "varz_retry_delay_ms" usual.varzRetryDelayMs u64?
  let coalesceWindowSecs ← defaulted r "coalesce_window_secs" usual.coalesceWindowSecs u64?
  let heartbeatSecs ← defaulted r "heartbeat_secs" usual.heartbeatSecs u64?
  let vlanPacketRateThreshold ← optional r "vlan_packet_rate_threshold" float?
  let vlanMetric ← defaulted r "vlan_metric" usual.vlanMetric text?
  let faucetConfig ← defaulted r "faucet_config" usual.faucetConfig text?
  some { eventSock, connectRetries, connectBackoffMs, portDebounceSecs, varzUrl, varzRetries,
         varzRetryDelayMs, coalesceWindowSecs, heartbeatSecs, vlanPacketRateThreshold,
         vlanMetric, faucetConfig }

end Reading

/-! ## Showing -/

/-- Each setting under its name, in the order of `names`. -/
def doc (s : Settings) : Doc :=
  .fields [
    ("event_sock", .text s.eventSock),
    ("connect_retries", .number s.connectRetries.toNat),
    ("connect_backoff_ms", .number s.connectBackoffMs.toNat),
    ("port_debounce_secs", .number s.portDebounceSecs.toNat),
    ("varz_url", .text s.varzUrl),
    ("varz_retries", .number s.varzRetries.toNat),
    ("varz_retry_delay_ms", .number s.varzRetryDelayMs.toNat),
    ("coalesce_window_secs", .number s.coalesceWindowSecs.toNat),
    ("heartbeat_secs", .number s.heartbeatSecs.toNat),
    ("vlan_packet_rate_threshold", .ofOption .float s.vlanPacketRateThreshold),
    ("vlan_metric", .text s.vlanMetric),
    ("faucet_config", .text s.faucetConfig)]

/-! ## Use -/

def seconds (n : UInt64) : Nat := n.toNat * 1000

def isRate (x : Float) : Bool := Decimal.isFinite x && !(x < 0)

def engine (s : Settings) : Except SettingFault EngineConfig :=
  if s.coalesceWindowSecs = 0 then .error ⟨"coalesce_window_secs", "must be at least 1"⟩
  else
    match s.vlanPacketRateThreshold.filter (!isRate ·) with
    | some x =>
      .error ⟨"vlan_packet_rate_threshold",
        Decimal.text Decimal.plain x ++ " is not a non-negative rate"⟩
    | none =>
      if (trim s.vlanMetric.toList).isEmpty then .error ⟨"vlan_metric", "must not be empty"⟩
      else .ok ⟨seconds s.coalesceWindowSecs, s.vlanPacketRateThreshold, s.vlanMetric⟩

def metricsUrl (s : Settings) : Except SettingFault Url :=
  match Url.parse s.varzUrl with
  | .error e => .error ⟨"varz_url", e.message⟩
  | .ok u =>
    if u.scheme = "http" ∨ u.scheme = "https" then .ok u
    else .error ⟨"varz_url", "unsupported scheme '" ++ u.scheme ++ "'"⟩

def feed (s : Settings) : Except SettingFault FeedConfig :=
  if s.heartbeatSecs = 0 then .error ⟨"heartbeat_secs", "must be at least 1"⟩
  else if s.eventSock = "" then .error ⟨"event_sock", "must not be empty"⟩
  else .ok { FeedConfig.usual s.eventSock with
    connectRetries := s.connectRetries
    backoff := s.connectBackoffMs.toNat
    debounce := seconds s.portDebounceSecs }

def monitor (s : Settings) : Except SettingFault MonitorConfig := do
  let metricsUrl ← s.metricsUrl
  let feed ← s.feed
  let engine ← s.engine
  .ok { feed, metricsUrl, engine
        scrapeRetries := s.varzRetries
        scrapePause := s.varzRetryDelayMs.toNat
        heartbeat := seconds s.heartbeatSecs }

end Settings
end Fabric
