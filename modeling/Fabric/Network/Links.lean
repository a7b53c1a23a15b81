import Fabric.Network

/-! The state of every link, derived anew whenever something it depends on has changed, so that
it never matters in which order things became known: the stack states of both ends, the applied
topology and the static configuration. An announced topology waits until the burst it belongs to
is over. -/

namespace Fabric.Network

/-- Is some end of the link the port that leads its switch towards the root? -/
def leadsToRoot (t : Topology) (l : Link) : Bool := l.ends.any fun e => t.rootHop? e.switch = some e.port

def linkState (n : Network) (l : Link) : LinkState :=
  let ends := l.ends.map n.stackState?
  let applied := n.topology.applied
  if ends.any (· = some .bad) then .broken
  else if !applied.links.contains l && !ends.all (· = some .up) then .down
  else if leadsToRoot applied l then .active
  else .up

/-- Every link that is configured, in the applied topology, or known already. -/
def linksToTrack (n : Network) (w : Wiring) : List Link :=
  ((KeySet.union w.stackLinks n.topology.applied.links).union (n.links.map fun _ _ => ())).keys

def refreshLink (now : Instant) (n : Network) (l : Link) : Network :=
  let state := n.linkState l
  { n with links := n.links.upsert l (.fresh l) fun x =>
      if x.state = state then x else { x with state := state, changes := x.changes.note now } }

def refreshLinks (n : Network) (w : Wiring) (now : Instant) : Network :=
  (n.linksToTrack w).foldl (refreshLink now) n

/-- A state code of the stack protocol that nobody knows is ignored. -/
def stackState (w : Wiring) (now : Instant) (e : Endpoint) (code : Int) (n : Network) : Network :=
  match StackState.ofCode? code with
  | none => n
  | some s =>
    if n.stackState? e = some s then n
    else (n.updatePort e fun p => { p with stack := some s }).refreshLinks w now

/-! ## Topology -/

/-- Stages an announcement in place of one that is staged already. -/
def stage (now : Instant) (t : Topology) (n : Network) : Network :=
  let since := (n.topology.staged.map (·.since)).getD now
  { n with topology := { n.topology with staged := some ⟨t, since⟩ } }

/-- Durations end here. -/
def longest : Int := Text.maxI64

/-- May what is staged be applied? Either the last change is further back than the window, or
the first announcement waits for more than twice the window. -/
def isDue (window : Nat) (now : Instant) (t : TopologyStatus) (s : Staged) : Bool :=
  let w : Int := min window longest
  t.appliedAt.all (w < now - ·) || min (2 * w) longest < now - s.since

/-- Puts a topology in force unless one with its hash is in force already. -/
def applyTopology (n : Network) (w : Wiring) (now : Instant) (t : Topology) : Network × Bool :=
  let old := n.topology
  if old.hash? = some t.hash then (n, false)
  else
    let linksMoved := old.applied.links ≠ t.links
    let rootMoved := old.applied.root ≠ t.root ∨ old.applied.rootHops ≠ t.rootHops
    let status := { old with
      applied := t
      appliedAt := some now
      linkChanges := if linksMoved then old.linkChanges.note now else old.linkChanges
      rootChanges := if rootMoved then old.rootChanges.note now else old.rootChanges }
    (({ n with topology := status } : Network).refreshLinks w now, true)

/-- Applies what is staged when it is due; tells whether anything changed. -/
def heartbeat (n : Network) (w : Wiring) (window : Nat) (now : Instant) : Network × Bool :=
  match n.topology.staged with
  | none => (n, false)
  | some s =>
    if isDue window now n.topology s then
      let n : Network := { n with topology := { n.topology with staged := none } }
      n.applyTopology w now s.topology
    else (n, false)

end Fabric.Network
