import Fabric.Network.Links
import Fabric.Proofs.Tables

/-! What a refresh does to the link table, in closed form: it tracks every link there is to
track, and gives each the state that follows from the stack states and the applied topology
(`get?_refreshLinks`). No link is refreshed from another one, so the order of the refresh and
repetitions in it do not matter. -/

namespace Fabric

/-- The link with its state as it is found now; a state that is found again is no change. -/
def TrackedLink.become (x : TrackedLink) (s : LinkState) (now : Instant) : TrackedLink :=
  if x.state = s then x else { x with state := s, changes := x.changes.note now }

namespace TrackedLink

@[simp] theorem become_state (x : TrackedLink) (s : LinkState) (now : Instant) :
    (x.become s now).state = s := by
  unfold become
  split
  · assumption
  · rfl

@[simp] theorem become_link (x : TrackedLink) (s : LinkState) (now : Instant) :
    (x.become s now).link = x.link := by
  unfold become
  split <;> rfl

theorem become_of_eq {x : TrackedLink} {s : LinkState} (h : x.state = s) (now : Instant) :
    x.become s now = x := by
  simp [become, h]

@[simp] theorem become_become (x : TrackedLink) (s : LinkState) (now : Instant) :
    (x.become s now).become s now = x.become s now :=
  become_of_eq (become_state x s now) now

end TrackedLink

namespace Network

/-- Is the link configured, applied, or known already? -/
def tracks (n : Network) (w : Wiring) (l : Link) : Bool :=
  w.stackLinks.contains l || n.topology.applied.links.contains l || n.links.contains l

theorem mem_linksToTrack {n : Network} {w : Wiring} {l : Link} :
    l ∈ n.linksToTrack w ↔ n.tracks w l = true := by
  unfold linksToTrack tracks
  rw [Table.mem_keys, KeySet.contains_union, KeySet.contains_union]
  have : (n.links.map fun _ _ => ()).contains l = n.links.contains l := by
    simp [Table.contains]
  rw [this]

/-- The entry of a link, or the one it would start with. -/
def linkEntry (n : Network) (l : Link) : TrackedLink := (n.links.get? l).getD (.fresh l)

theorem refreshLink_eq (now : Instant) (n : Network) (l : Link) :
    refreshLink now n l =
      { n with links := n.links.upsert l (.fresh l) fun x => x.become (n.linkState l) now } := rfl

theorem get?_foldl_refreshLink (now : Instant) (ls : List Link) (n : Network) (l : Link) :
    (ls.foldl (refreshLink now) n).links.get? l =
      if l ∈ ls then some ((n.linkEntry l).become (n.linkState l) now) else n.links.get? l := by
  induction ls generalizing n with
  | nil => simp
  | cons a r ih =>
    have hstate : (refreshLink now n a).linkState l = n.linkState l := rfl
    have hget : (refreshLink now n a).links.get? l =
        if l = a then some ((n.linkEntry l).become (n.linkState l) now) else n.links.get? l := by
      rw [refreshLink_eq, Table.get?_upsert]
      by_cases h : l = a
      · subst h; rfl
      · simp [h]
    rw [List.foldl_cons, ih, hstate, linkEntry, hget]
    by_cases ha : l = a
    · subst ha
      simp
    · simp [ha, linkEntry]

/-- A refresh changes the link table and nothing else. -/
theorem foldl_refreshLink_eq (now : Instant) (ls : List Link) (n : Network) :
    ls.foldl (refreshLink now) n = { n with links := (ls.foldl (refreshLink now) n).links } := by
  induction ls generalizing n with
  | nil => rfl
  | cons a r ih =>
    rw [List.foldl_cons, ih]
    rfl

theorem refreshLinks_eq (n : Network) (w : Wiring) (now : Instant) :
    n.refreshLinks w now = { n with links := (n.refreshLinks w now).links } :=
  foldl_refreshLink_eq now _ n

theorem get?_refreshLinks (n : Network) (w : Wiring) (now : Instant) (l : Link) :
    (n.refreshLinks w now).links.get? l =
      if n.tracks w l then some ((n.linkEntry l).become (n.linkState l) now) else none := by
  rw [refreshLinks, get?_foldl_refreshLink]
  by_cases h : n.tracks w l = true
  · rw [if_pos (mem_linksToTrack.mpr h), if_pos h]
  · rw [if_neg (mt mem_linksToTrack.mp h), if_neg h]
    have : n.links.contains l = false := by
      unfold tracks at h
      simp_all
    simpa [Table.contains] using this

@[simp] theorem refreshLinks_topology (n : Network) (w : Wiring) (now : Instant) :
    (n.refreshLinks w now).topology = n.topology := by rw [refreshLinks_eq]

/-! ## Topologies -/

/-- The status once `t` is in force. -/
def renewed (old : TopologyStatus) (now : Instant) (t : Topology) : TopologyStatus :=
  { old with
    applied := t
    appliedAt := some now
    linkChanges := if old.applied.links ≠ t.links then old.linkChanges.note now else old.linkChanges
    rootChanges :=
      if old.applied.root ≠ t.root ∨ old.applied.rootHops ≠ t.rootHops then old.rootChanges.note now
      else old.rootChanges }

theorem applyTopology_same {n : Network} {t : Topology} (h : n.topology.hash? = some t.hash)
    (w : Wiring) (now : Instant) : n.applyTopology w now t = (n, false) := by
  simp [applyTopology, h]

theorem applyTopology_new {n : Network} {t : Topology} (h : n.topology.hash? ≠ some t.hash)
    (w : Wiring) (now : Instant) :
    n.applyTopology w now t =
      (({ n with topology := renewed n.topology now t } : Network).refreshLinks w now, true) := by
  unfold applyTopology
  dsimp only
  rw [if_neg h]
  rfl

/-- What waits to be applied. -/
def withStaged (x : Option Staged) (n : Network) : Network :=
  { n with topology := { n.topology with staged := x } }

theorem heartbeat_cases (n : Network) (w : Wiring) (window : Nat) (now : Instant) :
    (n.heartbeat w window now).1 = n ∨ (n.heartbeat w window now).1 = n.withStaged none ∨
      ∃ status, (n.heartbeat w window now).1 =
        ({ n with topology := status } : Network).refreshLinks w now := by
  unfold heartbeat
  split
  · exact .inl rfl
  next s _ =>
    split
    · by_cases hs : (n.withStaged none).topology.hash? = some s.topology.hash
      · exact .inr (.inl (congrArg Prod.fst (applyTopology_same hs w now)))
      · exact .inr (.inr ⟨_, congrArg Prod.fst (applyTopology_new hs w now)⟩)
    · exact .inl rfl

/-! ## Stack states -/

def noteStack (p : Port) (s : StackState) : Port := { p with stack := some s }

theorem stackState_cases (w : Wiring) (now : Instant) (e : Endpoint) (code : Int) (n : Network) :
    stackState w now e code n = n ∨
      ∃ s, stackState w now e code n = (n.updatePort e (noteStack · s)).refreshLinks w now := by
  unfold stackState
  split
  · exact .inl rfl
  next s _ =>
    split
    · exact .inl rfl
    · exact .inr ⟨s, rfl⟩

/-- What neither ports nor refreshes notice a report of the stack does not notice. -/
theorem stackState_comm {φ : Network → Network} {w : Wiring} {now : Instant} {e : Endpoint}
    {n : Network} (hread : (φ n).stackState? e = n.stackState? e)
    (hport : ∀ f, (φ n).updatePort e f = φ (n.updatePort e f))
    (hrefresh : ∀ m, (φ m).refreshLinks w now = φ (m.refreshLinks w now)) (code : Int) :
    stackState w now e code (φ n) = φ (stackState w now e code n) := by
  unfold stackState
  rw [hread]
  cases StackState.ofCode? code with
  | none => rfl
  | some s =>
    by_cases hs : n.stackState? e = some s
    · simp only [if_pos hs]
    · simp only [if_neg hs]
      rw [hport, hrefresh]

/-! ## Networks that refresh alike -/

/-- Two networks that differ in their link tables alone come out the same when they track the
same links and know the same of each. -/
theorem refreshLinks_congr {n : Network} {t : Table Link TrackedLink} {w : Wiring} (now : Instant)
    (htracks : ∀ l, ({ n with links := t } : Network).tracks w l = n.tracks w l)
    (hentry : ∀ l, (t.get? l).getD (.fresh l) = n.linkEntry l) :
    ({ n with links := t } : Network).refreshLinks w now = n.refreshLinks w now := by
  rw [refreshLinks_eq, refreshLinks_eq n]
  congr 1
  apply Table.ext_get?
  intro l
  rw [get?_refreshLinks, get?_refreshLinks, htracks]
  have hstate : ({ n with links := t } : Network).linkState l = n.linkState l := rfl
  have : ({ n with links := t } : Network).linkEntry l = n.linkEntry l := hentry l
  rw [hstate, this]

end Network
end Fabric
