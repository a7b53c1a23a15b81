import Fabric.Table
import Fabric.Text.Blank
import Fabric.Text.Numeral

/-! Event records. The controller writes one record a line: the switch it is about, a running
number, a time, and what happened. A record may carry any number of payloads; `reports` lists
what it says about switches, in the order in which the payloads are looked at. -/

namespace Fabric

open Fabric.Text

structure PortChange where
  port : UInt32
  status : Bool
  reason : String
deriving DecidableEq, Repr

structure Learn where
  port : UInt32
  mac : String
  vid : Option UInt16
  ip : Option String
deriving DecidableEq, Repr

structure Expiry where
  port : UInt32
  mac : String
  vid : Option UInt16
deriving DecidableEq, Repr

structure LagChange where
  port : UInt32
  state : Int
  role : Option Int
deriving DecidableEq, Repr

structure StackChange where
  port : UInt32
  state : Int
deriving DecidableEq, Repr

/-- A link as it is announced; a port is a label that ends in a number. -/
structure AnnouncedLink where
  key : Option String
  switchA : String
  portA : String
  switchZ : String
  portZ : String
deriving DecidableEq, Repr

/-- The whole stack topology at once. A root of no characters is no root. -/
structure Announcement where
  root : String
  links : List AnnouncedLink
  rootHops : Table String (Option UInt32)
deriving DecidableEq

structure ConfigHashes where
  files : String
  hashes : String
  error : String
deriving DecidableEq, Repr

structure ConfigChange where
  restart : Option String
  hashes : Option ConfigHashes
deriving DecidableEq, Repr

structure Event where
  version : Option UInt32
  /-- Seconds since the epoch. -/
  time : Float
  switch : Option String
  dpId : Option UInt64
  id : Option UInt64
  /-- Set on a record that the feed made up after holding a port down. -/
  debounced : Option Bool
  portChange : Option PortChange
  portsStatus : Option (Table UInt32 Bool)
  learn : Option Learn
  learnedMacs : Option (List Learn)
  expiry : Option Expiry
  lagChange : Option LagChange
  stackChange : Option StackChange
  announcement : Option Announcement
  configChange : Option ConfigChange
  /-- Why the switch connected or disconnected. -/
  connection : Option String

/-- The kinds of payload, by the names that records use. -/
inductive EventKind where
  | portChange
  | portsStatus
  | learn
  | learnedMacs
  | expiry
  | lagChange
  | stackChange
  | announcement
  | configChange
  | connection
deriving DecidableEq, Repr

namespace EventKind

def name : EventKind → String
  | portChange => "PORT_CHANGE"
  | portsStatus => "PORTS_STATUS"
  | learn => "L2_LEARN"
  | learnedMacs => "L2_LEARNED_MACS"
  | expiry => "L2_EXPIRE"
  | lagChange => "LAG_CHANGE"
  | stackChange => "STACK_STATE"
  | announcement => "STACK_TOPO_CHANGE"
  | configChange => "CONFIG_CHANGE"
  | connection => "DP_CHANGE"

def all : List EventKind :=
  [portChange, portsStatus, learn, learnedMacs, expiry, lagChange, stackChange, announcement,
    configChange, connection]

def ofName? (s : String) : Option EventKind := all.find? (·.name = s)

end EventKind

/-- One thing that a record says. -/
inductive Report where
  | portState (switch : String) (dpId : UInt64) (port : UInt32) (up : Bool)
  | portsStatus (switch : String) (dpId : UInt64) (ports : Table UInt32 Bool)
  | learn (switch : String) (l : Learn)
  | learnedMacs (switch : String) (ls : List Learn)
  | expiry (switch : String) (port : UInt32) (mac : String)
  | lag (switch : String) (l : LagChange)
  | stack (switch : String) (s : StackChange)
  | topology (a : Announcement)
  | reload (switch : String) (dpId : Option UInt64) (restart : Option String)
      (hashes : Option String)
  | connection (switch : String) (dpId : Option UInt64) (connected : Bool)

namespace Event

def empty : Event :=
  ⟨none, 0, none, none, none, none, none, none, none, none, none, none, none, none, none, none⟩

def carries (e : Event) : EventKind → Bool
  | .portChange => e.portChange.isSome
  | .portsStatus => e.portsStatus.isSome
  | .learn => e.learn.isSome
  | .learnedMacs => e.learnedMacs.isSome
  | .expiry => e.expiry.isSome
  | .lagChange => e.lagChange.isSome
  | .stackChange => e.stackChange.isSome
  | .announcement => e.announcement.isSome
  | .configChange => e.configChange.isSome
  | .connection => e.connection.isSome

/-- The first kind of payload that the record carries. -/
def kind? (e : Event) : Option EventKind := EventKind.all.find? e.carries

def switchName (e : Event) : String := e.switch.getD ""

/-- A port that was deleted is down whatever its status says. -/
def PortChange.isUp (c : PortChange) : Bool := c.status && c.reason != "DELETE"

def portState? (e : Event) : Option Report := do
  let c ← e.portChange
  let dpId ← e.dpId
  some (.portState e.switchName dpId c.port (PortChange.isUp c))

def portsStatus? (e : Event) : Option Report := do
  let ports ← e.portsStatus
  let dpId ← e.dpId
  some (.portsStatus e.switchName dpId ports)

def reload? (e : Event) : Option Report :=
  e.configChange.map fun c =>
    .reload e.switchName e.dpId c.restart ((c.hashes.map (·.hashes)).filter (· ≠ ""))

/-- All that the record says. The state follows only the first of them. -/
def reports (e : Event) : List Report :=
  [ e.portState?,
    e.portsStatus?,
    e.learn.map (.learn e.switchName),
    e.learnedMacs.map (.learnedMacs e.switchName),
    e.expiry.map fun x => .expiry e.switchName x.port x.mac,
    e.lagChange.map (.lag e.switchName),
    e.stackChange.map (.stack e.switchName),
    e.announcement.map .topology,
    e.reload?,
    e.connection.map fun reason => .connection e.switchName e.dpId (reason = "cold_start")
  ].filterMap fun r => r

/-! ## Records made from records -/

/-- The identity, number and time of a record without what it carries. -/
def bare (e : Event) : Event :=
  { empty with version := e.version, time := e.time, switch := e.switch, dpId := e.dpId, id := e.id }

def ofPort (e : Event) (port : UInt32) (status : Bool) : Event :=
  { e.bare with portChange := some ⟨port, status, "MODIFY"⟩ }

def ofLearn (e : Event) (l : Learn) : Event := { e.bare with learn := some l }

end Event

namespace AnnouncedLink

/-- The number at the end of a port label such as `Port 3`. -/
def portNumber? (label : String) : Option UInt32 := (words label.toList).getLast?.bind u32?

end AnnouncedLink
end Fabric
