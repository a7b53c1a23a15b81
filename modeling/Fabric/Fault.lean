import Fabric.Text.Numeral

/-! What can go wrong with the two feeds of the controller and with a question about the state. -/

namespace Fabric

open Fabric.Text

inductive Fault where
  | socketMissing (path : String) (retries : UInt32)
  | socketRefused (path cause : String)
  | notConnected
  | closed
  | readFailed (cause : String)
  /-- Events were lost between two records. -/
  | gap (expected got : UInt64)
  /-- A request got no reply; `soft` when trying again may help. -/
  | transport (soft : Bool) (cause : String)
  | badUrl (cause : String)
  | refused (status : Nat)
  | noMetrics (retries : UInt32)
  | undecodable (cause : String)
  | missingMetric (metric : String)
  | badSample (metric reason : String)
  | notRestored (detail : String)
  | unknownSwitch (name : String)
  | unknownHost (mac : String)
  | inconsistent (cause : String)
  | misconfigured (cause : String)
  | internal (cause : String)
deriving DecidableEq, Repr

namespace Fault

def message : Fault → String
  | socketMissing path retries =>
    "Event socket " ++ path ++ " not found after " ++ numeral retries.toNat ++ " retries"
  | socketRefused path cause => "Failed to connect to event socket " ++ path ++ ": " ++ cause
  | notConnected => "Event socket not connected"
  | closed => "Event socket closed by controller"
  | readFailed cause => "Event socket I/O error: " ++ cause
  | gap expected got =>
    "Event out of sequence: expected id " ++ numeral expected.toNat ++ ", got " ++ numeral got.toNat
  | transport _ cause => "HTTP transport error: " ++ cause
  | badUrl cause => "Invalid URL: " ++ cause
  | refused status => "Varz endpoint returned HTTP " ++ numeral status
  | noMetrics retries =>
    "Cannot retrieve prometheus metrics after " ++ numeral retries.toNat ++ " retries"
  | undecodable cause => "Deserialization error: " ++ cause
  | missingMetric metric => "Missing required metric: " ++ metric
  | badSample metric reason => "Invalid sample for " ++ metric ++ ": " ++ reason
  | notRestored detail => "State not restored: " ++ detail
  | unknownSwitch name => "Switch not found: " ++ name
  | unknownHost mac => "MAC address not learned: " ++ mac
  | inconsistent cause => "Consistency violation: " ++ cause
  | misconfigured cause => "Configuration error: " ++ cause
  | internal cause => "Internal error: " ++ cause

/-- The event channel is gone; nothing more comes without a new connection. -/
def losesChannel : Fault → Bool
  | notConnected | closed | readFailed _ => true
  | _ => false

/-- The event socket could not be reached at all. -/
def isConnectFailure : Fault → Bool
  | socketMissing _ _ | socketRefused _ _ => true
  | _ => false

/-- The same attempt may succeed later. -/
def isTransient : Fault → Bool
  | transport soft _ => soft
  | refused status => 500 ≤ status
  | socketMissing _ _ | socketRefused _ _ => true
  | _ => false

/-- The stream skipped events, so the state has to be restored. -/
def isGap : Fault → Bool
  | gap _ _ => true
  | _ => false

end Fault
end Fabric
