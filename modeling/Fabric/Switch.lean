import Fabric.Changes
import Fabric.Host

/-! Switches and their ports. Both come to be at the first mention and stay. -/

namespace Fabric

/-- The stack protocol's view of one port. -/
inductive StackState where
  | adminDown
  | init
  | bad
  | up
  | gone
  | none
deriving DecidableEq, Repr

namespace StackState

def ofCode? (code : Int) : Option StackState :=
  match code with
  | 0 => some adminDown
  | 1 => some init
  | 2 => some bad
  | 3 => some up
  | 4 => some gone
  | 5 => some StackState.none
  | _ => Option.none

def name : StackState → String
  | adminDown => "admin_down"
  | init => "init"
  | bad => "bad"
  | up => "up"
  | gone => "gone"
  | none => "none"

end StackState

structure Port where
  /-- Not known before the first report. -/
  up : Option Bool
  changes : Changes
  stack : Option StackState
  macs : KeySet Mac
deriving DecidableEq

def Port.fresh : Port := ⟨none, .none, none, ∅⟩

inductive SwitchStatus where
  | connected
  | down
deriving DecidableEq, Repr

namespace SwitchStatus

def name : SwitchStatus → String
  | connected => "connected"
  | down => "down"

def ofName? (s : String) : Option SwitchStatus := [connected, down].find? (·.name = s)

end SwitchStatus

/-- The reloads of a switch's configuration. -/
structure Reloads where
  count : Nat
  kind : Option String
  last : Option Instant
  hashes : Option String
deriving DecidableEq, Repr

structure Switch where
  name : String
  dpId : Option UInt64
  /-- Not known before the controller reports the connection. -/
  status : Option SwitchStatus
  changes : Changes
  reloads : Reloads
  ports : Table UInt32 Port
deriving DecidableEq

namespace Switch

def fresh (name : String) : Switch := ⟨name, none, none, .none, ⟨0, none, none, none⟩, ∅⟩

def isConnected (s : Switch) : Bool := s.status = some .connected

def port (s : Switch) (p : UInt32) : Port := (s.ports.get? p).getD .fresh

end Switch
end Fabric
