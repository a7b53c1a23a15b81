import Fabric.Config
import Fabric.Event.Json
import Fabric.Fault
import Fabric.Time

/-! The feed of events from the controller. Bytes come in over a wire and are cut into lines;
a port that goes down is held back for a while, since it may only flap; what a record says of
many ports or hosts is queued as one event for each. This module holds the state of a session
and what changes it from outside: the wire and the time. -/

namespace Fabric

open Fabric.Text

/-- A port by the datapath id of its switch. -/
structure PortId where
  dpId : UInt64
  port : UInt32
deriving DecidableEq, Repr

namespace PortId

instance : Ord PortId := ⟨compareLex (compareOn PortId.dpId) (compareOn PortId.port)⟩

instance : Std.TransOrd PortId :=
  inferInstanceAs (Std.TransCmp (compareLex (compareOn PortId.dpId) (compareOn PortId.port)))

theorem compare_eq (x y : PortId) :
    compare x y = (compare x.dpId y.dpId).then (compare x.port y.port) := rfl

instance : Std.LawfulEqOrd PortId where
  compare_self {x} := by simp
  eq_of_compare {x y} h := by
    rw [compare_eq, Ordering.then_eq_eq] at h
    obtain ⟨hd, hp⟩ := h
    cases x; cases y
    simp_all

end PortId

/-- An event that says a port is down, and when it may be believed. -/
structure Held where
  id : PortId
  due : Instant
  event : Event

inductive Wire where
  | absent
  | live
  /-- The peer is gone, nothing more will come. -/
  | ended
deriving DecidableEq, Repr

structure Feed where
  config : FeedConfig
  wire : Wire
  /-- Whole lines that nobody has looked at. -/
  lines : List (List UInt8)
  /-- The start of a line whose end has not come. -/
  rest : List UInt8
  queue : List Event
  /-- At most one for a port, in the order in which they were held. -/
  held : List Held
  /-- The last state of each port that was delivered. -/
  previous : Table PortId Bool
  /-- Events up to this number are known already. -/
  horizon : Option UInt64
  lastId : Option UInt64
  now : Instant

namespace Feed

def fresh (config : FeedConfig) : Feed :=
  ⟨config, .absent, [], [], [], [], ∅, none, none, 0⟩

def isConnected (f : Feed) : Bool := f.wire ≠ .absent

/-! ## The wire -/

/-- Ends the session. Nothing of it is left but the time, as long as no timer goes off while the queue has been
emptied and the timers have not all been cancelled (`Ingestor.close` and what follows it). -/
def disconnect (f : Feed) : Feed := { fresh f.config with now := f.now }

/-- Starts a session on a new wire. -/
def attach (f : Feed) : Feed := { f.disconnect with wire := .live }

/-- The last of the pieces between line ends is the start of the next line. -/
def receive (f : Feed) (bytes : List UInt8) : Feed :=
  let pieces := splitAt (· == 0x0A) (f.rest ++ bytes)
  { f with lines := f.lines ++ pieces.dropLast, rest := pieces.getLast?.getD [] }

def hangUp (f : Feed) : Feed :=
  match f.wire with
  | .live => { f with wire := .ended }
  | _ => f

def setHorizon (f : Feed) (id : UInt64) : Feed := { f with horizon := some id, lastId := none }

/-! ## Time -/

/-- Queues events ahead of what is queued; what does not fit is lost at the tail. -/
def push (f : Feed) (es : List Event) : Feed :=
  { f with queue := (es ++ f.queue).take f.config.capacity }

def seconds (t : Instant) : Float := Float.ofInt t / 1000

/-- The time of an event that was held is the time it was believed. -/
def release (f : Feed) (h : Held) : Feed :=
  { f with now := h.due }.push [{ h.event with time := seconds h.due }]

/-- Lets time pass until `t`. What falls due is queued in the order in which it was held. -/
def advance (f : Feed) (t : Instant) : Feed :=
  let due := f.held.filter (·.due ≤ t)
  let later := f.held.filter (t < ·.due)
  { due.foldl release { f with held := later } with now := t }

def sleep (f : Feed) (ms : Nat) : Feed := f.advance (f.now + ms)

/-! ## Connecting -/

/-- What is found at the path of the socket. -/
inductive Site where
  | nothing
  /-- Something that refuses connections. -/
  | refusing
  /-- A controller, from so many milliseconds on. -/
  | listening (after : Nat)
deriving DecidableEq, Repr

/-- When the path comes to be. -/
def Site.appears : Site → Option Nat
  | nothing => none
  | refusing => some 0
  | listening after => some after

/-- The first look, after so many pauses, at which the path is there. -/
def look? (config : FeedConfig) (site : Site) : Option Nat :=
  site.appears.bind fun t =>
    let k := (t + config.backoff - 1) / config.backoff
    if t ≤ k * config.backoff ∧ k ≤ config.connectRetries.toNat then some k else none

/-- Waits for the path and connects. A session goes on if that fails. -/
def connect (f : Feed) (site : Site) : Feed × Except Fault Unit :=
  let path := f.config.socket
  match look? f.config site with
  | none =>
    (f.sleep (f.config.connectRetries.toNat * f.config.backoff),
      .error (.socketMissing path f.config.connectRetries))
  | some k =>
    let f := f.sleep (k * f.config.backoff)
    match site with
    | .listening _ => (f.attach, .ok ())
    | _ => (f, .error (.socketRefused path "connection refused"))

end Feed
end Fabric
