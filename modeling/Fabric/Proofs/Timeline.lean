import Fabric.Feed.Delivery

/-! What happens in the life of a feed, in order, each with the feed as it is then: bytes come in,
records are ruled on, events are worked off and perhaps handed over, what was held is believed. -/

namespace Fabric

/-- The port that an event is about, and whether it says that it is up. -/
def Event.port? (e : Event) : Option (PortId × Bool) :=
  match e.portState? with
  | some (.portState _ dpId port up) => some (⟨dpId, port⟩, up)
  | _ => none

/-- The state of a port, if the event is about it. -/
def Event.upOf? (id : PortId) (e : Event) : Option Bool :=
  e.port?.bind fun (x, up) => if x = id then some up else none

/-- The state of a port, if the event is news of it that nobody has held yet. -/
def Event.newsOf? (id : PortId) (e : Event) : Option Bool :=
  if e.debounced = some true then none else e.upOf? id

/-- An event that has waited, or need not wait. -/
def Event.believed (e : Event) : Event := { e with debounced := some true }

/-- What was held, under the time at which it was due. -/
def Held.believed (h : Held) : Event := { h.event with time := Feed.seconds h.due }

/-- What becomes of a record on account of its number. -/
inductive Ruling where
  | admitted (e : Event)
  | covered (e : Event)
  | gap (expected got : UInt64)

/-- How the feed rules on a record. -/
def Feed.ruling (f : Feed) (e : Event) : Ruling :=
  match f.sequence e with
  | .next => .admitted e
  | .covered => .covered e
  | .gap expected got => .gap expected got

namespace Delivery

def event? : Delivery → Option Event
  | event e => some e
  | _ => none

def fault? : Delivery → Option Fault
  | fault x => some x
  | _ => none

/-- What whoever asked is told, if it is anything. -/
def told : Delivery → List Delivery
  | idle => []
  | d => [d]

end Delivery

/-- Something that happens. -/
inductive Mark where
  | received (bytes : List UInt8)
  /-- A line is read off, and what is on it is ruled on. -/
  | line (l : List UInt8) (r : Option Ruling)
  /-- An event is worked off, and something may be handed over. -/
  | settled (e : Event) (out : Option Event)
  /-- Nothing is queued and no line is left, which may be a fault. -/
  | exhausted (x : Option Fault)
  /-- What was held of a port goes to the queue. -/
  | believed (id : PortId) (e : Event)
  /-- The queue is full. -/
  | lost (e : Event)
  | horizon (id : UInt64)
  /-- The session is over. -/
  | ended

namespace Mark

/-- A record that is let in and claims to be one the feed held. -/
def isPosed : Mark → Bool
  | line _ (some (.admitted e)) => e.debounced = some true
  | _ => false

def isLoss : Mark → Bool
  | lost _ => true
  | _ => false

def isEnd : Mark → Bool
  | ended => true
  | _ => false

def isHorizon : Mark → Bool
  | horizon _ => true
  | _ => false

/-- The state of a port, if the mark is news of it. -/
def heard? (id : PortId) : Mark → Option Bool
  | settled e _ => e.newsOf? id
  | _ => none

def delivered? : Mark → Option Event
  | settled _ out => out
  | _ => none

/-- The state of a port, if the mark is a delivery of it. -/
def shown? (id : PortId) (m : Mark) : Option Bool := m.delivered?.bind (·.upOf? id)

def isBelieved (id : PortId) : Mark → Bool
  | believed x _ => x = id
  | _ => false

/-- What makes anything held of a port void. -/
def supersedes (id : PortId) (m : Mark) : Bool := (m.heard? id).isSome || m.isEnd

/-- What comes to the feed from outside. -/
def input? : Mark → Option Mark
  | received bytes => some (received bytes)
  | horizon id => some (horizon id)
  | ended => some ended
  | _ => none

/-- What whoever asked is told. -/
def told : Mark → List Delivery
  | settled _ (some e) => [.event e]
  | line _ (some (.gap expected got)) => [.fault (.gap expected got)]
  | exhausted (some x) => [.fault x]
  | _ => []

theorem eq_ended {m : Mark} (h : m.isEnd = true) : m = ended := by
  cases m <;> simp_all [isEnd]

theorem eq_settled {m : Mark} {id : PortId} {up : Bool} (h : m.heard? id = some up) :
    ∃ e out, m = settled e out ∧ e.newsOf? id = some up := by
  cases m <;> simp_all [heard?]

theorem eq_believed {m : Mark} {id : PortId} (h : m.isBelieved id = true) : ∃ e, m = believed id e := by
  cases m <;> simp_all [isBelieved]

end Mark

/-- Something that happens, and the feed right after it. -/
structure Moment where
  mark : Mark
  after : Feed

def Moment.time (m : Moment) : Instant := m.after.now

abbrev Timeline := List Moment

namespace Timeline

/-- The events that are handed over in a timeline. -/
def delivered (l : Timeline) : List Event := l.filterMap (·.mark.delivered?)

def inputs (l : Timeline) : List Mark := l.filterMap (·.mark.input?)

def told (l : Timeline) : List Delivery := l.flatMap (·.mark.told)

theorem delivered_at (ms : List Mark) (g : Feed) :
    delivered (ms.map (⟨·, g⟩)) = ms.filterMap Mark.delivered? := by
  rw [delivered, List.filterMap_map]
  rfl

theorem inputs_at (ms : List Mark) (g : Feed) : inputs (ms.map (⟨·, g⟩)) = ms.filterMap Mark.input? := by
  rw [inputs, List.filterMap_map]
  rfl

/-- What `p` told of last in the session. -/
def latest (p : Mark → Option Bool) (l : Timeline) : Option Bool :=
  l.foldl (fun s m => if m.mark.isEnd then none else (p m.mark).or s) none

theorem delivered_append (l m : Timeline) : delivered (l ++ m) = l.delivered ++ m.delivered :=
  List.filterMap_append

theorem inputs_append (l m : Timeline) : inputs (l ++ m) = l.inputs ++ m.inputs := List.filterMap_append

theorem told_append (l m : Timeline) : told (l ++ m) = l.told ++ m.told := List.flatMap_append

/-- Only events that are handed over are told as events. -/
theorem delivered_eq_told (l : Timeline) : l.delivered = l.told.filterMap Delivery.event? := by
  have hmark (a : Mark) : a.told.filterMap Delivery.event? = a.delivered?.toList := by
    cases a with
    | line l r => rcases r with _ | _ | _ | _ <;> rfl
    | settled e out => cases out <;> rfl
    | exhausted x => cases x <;> rfl
    | _ => rfl
  induction l with
  | nil => rfl
  | cons m l ih =>
    rw [told, List.flatMap_cons, List.filterMap_append, hmark]
    rw [told] at ih
    rw [← ih, delivered, delivered, List.filterMap_cons]
    cases m.mark.delivered? <;> rfl

end Timeline

namespace Feed

/-! ## Runs -/

/-- What may happen to a feed. -/
inductive Turn where
  | receive (bytes : List UInt8)
  | hangUp
  | sleep (ms : Nat)
  | poll
  | await (ms : Nat)
  | setHorizon (id : UInt64)
  | attach
  | disconnect
  | connect (site : Site)

def turn (f : Feed) : Turn → Feed
  | .receive bytes => f.receive bytes
  | .hangUp => f.hangUp
  | .sleep ms => f.sleep ms
  | .poll => f.poll.1
  | .await ms => (f.await ms).1
  | .setHorizon id => f.setHorizon id
  | .attach => f.attach
  | .disconnect => f.disconnect
  | .connect site => (f.connect site).1

def run (f : Feed) (turns : List Turn) : Feed := turns.foldl turn f

/-- What whoever asks is answered. -/
def reply? (f : Feed) : Turn → Option Delivery
  | .poll => some f.poll.2
  | .await ms => some (f.await ms).2
  | _ => none

/-- All that is answered along a run. -/
def replies (f : Feed) : List Turn → List Delivery
  | [] => []
  | a :: r => (f.reply? a).toList ++ (f.turn a).replies r

/-- The event that whoever asked is handed. -/
def turnEvent? (f : Feed) : Turn → Option Event
  | .poll => f.poll.2.event?
  | .await ms => (f.await ms).2.event?
  | _ => none

/-- The events that are handed over along a run. -/
def deliveries (f : Feed) : List Turn → List Event
  | [] => []
  | a :: r => (f.turnEvent? a).toList ++ (f.turn a).deliveries r

/-- What a turn brings to the feed from outside. -/
def inputs (f : Feed) : Turn → List Mark
  | .receive bytes => [.received bytes]
  | .setHorizon id => [.horizon id]
  | .attach | .disconnect => [.ended]
  | .connect site =>
    match (f.connect site).2 with
    | .ok _ => [.ended]
    | .error _ => []
  | .hangUp | .sleep _ | .poll | .await _ => []

/-- A turn that goes on with the session and leaves the horizon where it is. -/
def Turn.isWithin (config : FeedConfig) : Turn → Bool
  | setHorizon _ | attach | disconnect => false
  | connect (.listening after) => (look? config (.listening after)).isNone
  | _ => true

theorem turnEvent?_eq (f : Feed) (a : Turn) :
    (f.turnEvent? a).toList = ((f.reply? a).toList.flatMap Delivery.told).filterMap Delivery.event? := by
  have hdelivery (d : Delivery) : d.event?.toList = ([d].flatMap Delivery.told).filterMap Delivery.event? := by
    cases d <;> rfl
  cases a with
  | poll => exact hdelivery f.poll.2
  | await ms => exact hdelivery (f.await ms).2
  | _ => rfl

end Feed
end Fabric
