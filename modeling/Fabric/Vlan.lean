import Fabric.Time

/-! Packet counters of VLANs, sampled from time to time. -/

namespace Fabric

structure VlanCounters where
  packets : Float
  /-- Packets a second since the sample before. -/
  rate : Float
  flooding : Bool
  sampledAt : Instant

namespace VlanCounters

def first (packets : Float) (now : Instant) : VlanCounters := ⟨packets, 0, false, now⟩

/-- Takes in a sample. A counter that went backwards has been reset and says nothing about the
rate, and neither does a sample that is not later than the one before. -/
def update (v : VlanCounters) (packets : Float) (now : Instant) (threshold : Option Float) :
    VlanCounters :=
  let elapsed := Float.ofInt (now - v.sampledAt) / 1000
  let rate := if elapsed > 0 && packets >= v.packets then (packets - v.packets) / elapsed else 0
  ⟨packets, rate, threshold.any (rate > ·), now⟩

end VlanCounters
end Fabric
