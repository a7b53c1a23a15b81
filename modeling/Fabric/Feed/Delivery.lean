import Fabric.Feed

/-! What a feed delivers. Records are read in turn: one whose number is not past the last one is
dropped, a missing number is a fault, and each record is worked off entirely before the next line
is looked at. Of each port only changes are delivered. -/

namespace Fabric

inductive Delivery where
  | event (e : Event)
  /-- There is nothing to deliver. -/
  | idle
  | fault (f : Fault)

namespace Feed

/-! ## Ports -/

/-- Delivers the state of a port unless it was delivered last. -/
def dedupe (f : Feed) (id : PortId) (up : Bool) (e : Event) : Feed × Option Event :=
  ({ f with previous := f.previous.insert id up },
    if f.previous.get? id = some up then none else some e)

/-- Forgets what is held for a port. -/
def drop (f : Feed) (id : PortId) : Feed := { f with held := f.held.filter (·.id ≠ id) }

def hold (f : Feed) (id : PortId) (e : Event) : Feed :=
  { f with held := f.held ++ [⟨id, f.now + f.config.debounce, e⟩] }

/-- News of a port supersedes what is held for it. A port that is up is believed at once, one
that is down after a while. -/
def debounce (f : Feed) (id : PortId) (up : Bool) (e : Event) : Feed × Option Event :=
  let f := f.drop id
  let e := { e with debounced := some true }
  if up || f.config.debounce = 0 then f.dedupe id up e else (f.hold id e, none)

/-- An event about one thing. -/
def settle (f : Feed) (e : Event) : Feed × Option Event :=
  match e.portState? with
  | some (.portState _ dpId port up) =>
    if e.debounced = some true then f.dedupe ⟨dpId, port⟩ up e else f.debounce ⟨dpId, port⟩ up e
  | _ => (f, some e)

/-- Settles queued events until one is delivered. -/
def drain (f : Feed) : List Event → Feed × Option Event
  | [] => ({ f with queue := [] }, none)
  | e :: r =>
    match { f with queue := r }.settle e with
    | (f, some e) => (f, some e)
    | (f, none) => drain f r

/-! ## Records -/

/-- The events that a record about many ports or hosts stands for. -/
def parts? (e : Event) : Option (List Event) :=
  match e.portState?, e.portsStatus? with
  | some _, _ => none
  | none, some (.portsStatus _ _ ports) => some (ports.toList.map fun (p, up) => e.ofPort p up)
  | none, _ => e.learnedMacs.map fun ls => ls.map e.ofLearn

/-- Works off a record. -/
def take (f : Feed) (e : Event) : Feed × Option Event :=
  match parts? e with
  | some es =>
    let f := f.push es
    f.drain f.queue
  | none => f.settle e

inductive Sequence where
  | next
  | covered
  | gap (expected got : UInt64)
deriving DecidableEq, Repr

/-- Where a record stands to the last one, or else to the horizon. One without a number always
comes next. -/
def sequence (f : Feed) (e : Event) : Sequence :=
  match e.id, f.lastId.or f.horizon with
  | some id, some floor =>
    if id ≤ floor then .covered else if id = floor + 1 then .next else .gap (floor + 1) id
  | _, _ => .next

/-- Remembers the number of a record that is not covered. -/
def pass (f : Feed) (e : Event) : Feed := { f with lastId := e.id.or f.lastId }

def isLineBlank (b : UInt8) : Bool := b = 0x20 || b = 0x09 || b = 0x0A || b = 0x0C || b = 0x0D

/-- The record on a line, if there is one. -/
def record? (line : List UInt8) : Option Event :=
  Event.ofBytes? ((line.dropWhile isLineBlank).reverse.dropWhile isLineBlank).reverse

def readLines (f : Feed) : List (List UInt8) → Feed × Option (Except Fault Event)
  | [] => ({ f with lines := [] }, none)
  | l :: r =>
    let f := { f with lines := r }
    match record? l with
    | none => readLines f r
    | some e =>
      match f.sequence e with
      | .covered => readLines f r
      | .gap expected got => (f.pass e, some (.error (.gap expected got)))
      | .next =>
        match (f.pass e).take e with
        | (f, some e) => (f, some (.ok e))
        | (f, none) => readLines f r

/-! ## Asking -/

/-- What there is when nothing is queued and no line is left. -/
def atWire (f : Feed) : Delivery :=
  match f.wire with
  | .absent => .fault .notConnected
  | .live => .idle
  | .ended => .fault .closed

/-- What can be delivered now. This is asking in one step, with no timer that goes off between looking at the queue,
reading a line and settling what is on it; where timers are on their own (`Ingestor`) each of these is a step. -/
def poll (f : Feed) : Feed × Delivery :=
  match f.drain f.queue with
  | (f, some e) => (f, .event e)
  | (f, none) =>
    match f.readLines f.lines with
    | (f, some (.ok e)) => (f, .event e)
    | (f, some (.error x)) => (f, .fault x)
    | (f, none) => (f, f.atWire)

/-- Polls at each of the instants, and lets time pass until `deadline` if nothing comes. -/
def pollAt (f : Feed) (deadline : Instant) : List Instant → Feed × Delivery
  | [] => (f.advance deadline, .idle)
  | t :: r =>
    match (f.advance t).poll with
    | (f, .idle) => pollAt f deadline r
    | d => d

/-- Waits at most so long. With no line left nothing new is held, so there is news only when
something held falls due. -/
def await (f : Feed) (ms : Nat) : Feed × Delivery :=
  match f.poll with
  | (f, .idle) =>
    let deadline := f.now + ms
    pollAt f deadline ((f.held.map (·.due)).filter (· < deadline))
  | d => d

end Feed
end Fabric
