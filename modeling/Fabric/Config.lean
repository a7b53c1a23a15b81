import Fabric.Url

/-! How the parts of a running monitor behave. All durations are whole milliseconds. -/

namespace Fabric

structure EngineConfig where
  /-- How long an announced topology waits for the burst to end. -/
  window : Nat
  /-- Packets a second above which a VLAN floods. -/
  threshold : Option Float
  vlanMetric : String

def EngineConfig.usual : EngineConfig := ⟨2000, none, "vlan_packet_count"⟩

structure FeedConfig where
  socket : String
  connectRetries : UInt32
  backoff : Nat
  /-- How long a port has to stay down before it is reported; never held when 0. -/
  debounce : Nat
  /-- How many records may be pending at once. -/
  capacity : Nat

def FeedConfig.usual (socket : String) : FeedConfig := ⟨socket, 10, 1000, 5000, 4096⟩

structure MonitorConfig where
  feed : FeedConfig
  metricsUrl : Url
  scrapeRetries : UInt32
  scrapePause : Nat
  heartbeat : Nat
  engine : EngineConfig

end Fabric
