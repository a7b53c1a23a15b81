import Fabric.Fault
import Fabric.Settings

/-! Why a command fails, and the exit code that tells. -/

namespace Fabric.Cli

inductive Failure where
  /-- The arguments do not make sense. -/
  | misuse
  | noFile (path : String)
  | unreadable (path : String)
  /-- The layers of the settings cannot be read. -/
  | badSettings
  | invalid (fault : SettingFault)
  | badWiring (path : String)
  /-- A setting has a value that the format cannot hold. -/
  | unwritable
  /-- The state could not be restored from the metrics. -/
  | notRestored (fault : Fault)
  | feedLost (fault : Fault)
  | unanswered (detail : String)
  | other (fault : Fault)
deriving DecidableEq, Repr

namespace Failure

/-- 2 for a mistake of the user, 4 for something that is not there, 7 for a feed that cannot be
reached, 1 for all else. -/
def exitCode : Failure → Nat
  | misuse | unreadable _ | badSettings | invalid _ | badWiring _ | unwritable => 2
  | noFile _ => 4
  | notRestored _ | feedLost _ => 7
  | unanswered _ => 1
  | other (.unknownSwitch _) | other (.unknownHost _) => 4
  | other _ => 1

/-- What ends a run: the loss of the event socket, the lack of metrics, or anything else. -/
def ofRun (f : Fault) : Failure :=
  if f.losesChannel || f.isConnectFailure then feedLost f
  else match f with
    | .notRestored _ | .unknownSwitch _ | .unknownHost _ | .inconsistent _ | .misconfigured _
    | .internal _ => other f
    | _ => notRestored f

def message : Failure → String
  | misuse => "invalid arguments"
  | noFile path => "config file not found: " ++ path
  | unreadable path => "cannot read " ++ path
  | badSettings => "config loading failed"
  | invalid fault => fault.message
  | badWiring path => "invalid Faucet config " ++ path
  | unwritable => "failed to serialize config"
  | notRestored fault => "Could not restore state from varz: " ++ fault.message
  | feedLost fault => "Lost the Faucet event socket: " ++ fault.message
  | unanswered detail => "not available: " ++ detail
  | other fault => fault.message

end Failure
end Fabric.Cli
