import Fabric.Proofs.LevelTriggered

/-! Announcements come in bursts, and a burst changes the topology once. What waits is the latest
announcement of the burst, with the time of the first one (`Staged.ofBurst?`). As long as time does not
run backwards a burst never starts before the last change, so the ceiling on waiting is never reached
before the window is over (`isDue_iff`): a heartbeat takes what waits exactly when the last change is
further back than the window, and an announcement of what is in force moves nothing
(`run_coalesced`). -/

namespace Fabric

open Network

/-! ## Bursts -/

/-- The topology that an update announces. -/
def Update.announced? : Update → Option Topology
  | stage t => some t
  | _ => none

/-- The topologies that updates announce, each with the time of the announcement. -/
def announced (us : List Update) (now : Instant) : List (Topology × Instant) :=
  (us.filterMap Update.announced?).map (·, now)

namespace Operation

def announcements : Operation → List (Topology × Instant)
  | update now u => announced [u] now
  | dispatch e => announced e.updates (.ofSeconds e.time)
  | _ => []

/-- The times given to announcements, heartbeats and restores. -/
def times : Operation → List Instant
  | heartbeat now | restore now _ => [now]
  | op => op.announcements.map (·.2)

end Operation

/-- What waits after a burst of announcements: the latest, since the first. -/
def Staged.ofBurst? (burst : List (Topology × Instant)) : Option Staged := do
  let first ← burst.head?
  let latest ← burst.getLast?
  some ⟨latest.1, first.2⟩

theorem Staged.ofBurst?_snoc (burst : List (Topology × Instant)) (t : Topology) (now : Instant) :
    ofBurst? (burst ++ [(t, now)]) = some ⟨t, ((ofBurst? burst).map (·.since)).getD now⟩ := by
  cases burst with
  | nil => rfl
  | cons first r =>
    obtain ⟨latest, hlatest⟩ : ∃ latest, (first :: r).getLast? = some latest :=
      ⟨_, List.getLast?_eq_some_getLast (by simp)⟩
    have hsnoc : (first :: r ++ [(t, now)]).getLast? = some (t, now) := List.getLast?_concat
    unfold ofBurst?
    rw [hsnoc, hlatest]
    rfl

theorem Staged.ofBurst?_eq_some {burst : List (Topology × Instant)} {s : Staged}
    (h : ofBurst? burst = some s) : ∃ a ∈ burst, a.2 = s.since := by
  cases burst with
  | nil => cases h
  | cons first r =>
    obtain ⟨latest, hlatest⟩ : ∃ latest, (first :: r).getLast? = some latest :=
      ⟨_, List.getLast?_eq_some_getLast (by simp)⟩
    simp only [ofBurst?, List.head?_cons, hlatest, Option.bind_eq_bind, Option.bind_some,
      Option.some.injEq] at h
    exact ⟨first, by simp, by rw [← h]⟩

theorem Staged.ofBurst?_filled {burst : List (Topology × Instant)} (h : burst ≠ []) :
    ∃ s, ofBurst? burst = some s := by
  obtain ⟨front, ⟨t, now⟩, rfl⟩ : ∃ front a, burst = front ++ [a] :=
    ⟨_, _, (List.dropLast_concat_getLast h).symm⟩
  exact ⟨_, ofBurst?_snoc front t now⟩

/-- What a run has done to the topology: the announcements since one was last taken, and when a
topology was last put in force. -/
structure Ledger where
  waiting : List (Topology × Instant)
  changed : Option Instant

namespace Engine

/-- Does the snapshot have every metric that a restore needs? -/
def passes (g : Engine) (s : Snapshot) : Bool := g.neededMetrics.all (s.contains ·)

/-- Does the operation take what waits? -/
def takes (g : Engine) : Operation → Bool
  | .heartbeat now =>
    g.network.topology.staged.isSome && (g.heartbeat now).1.network.topology.staged.isNone
  | .restore _ s => g.passes s
  | _ => false

/-- When the operation puts a topology in force, if it does. -/
def changesAt? (g : Engine) : Operation → Option Instant
  | .heartbeat now => if (g.heartbeat now).2 then some now else none
  | .restore now s => if g.passes s then some now else none
  | _ => none

end Engine

namespace Ledger

def empty : Ledger := ⟨[], none⟩

def after (l : Ledger) (g : Engine) (op : Operation) : Ledger :=
  { waiting := if g.takes op then [] else l.waiting ++ op.announcements
    changed := (g.changesAt? op).or l.changed }

theorem after_silent (l : Ledger) {g : Engine} {op : Operation} (htakes : g.takes op = false)
    (hchanges : g.changesAt? op = none) (hsilent : op.announcements = []) : l.after g op = l := by
  simp [after, htakes, hchanges, hsilent]

/-- What changes the topology does so at the time it gives. -/
theorem changed_after {l : Ledger} {g : Engine} {op : Operation} {last : Instant}
    (h : (l.after g op).changed = some last) : l.changed = some last ∨ last ∈ op.times := by
  rcases Option.or_eq_some_iff.mp h with hnow | ⟨-, hbefore⟩
  · refine .inr ?_
    cases op with
    | heartbeat now | restore now =>
      obtain ⟨-, hlast⟩ := Option.ite_none_right_eq_some.mp hnow
      cases hlast
      exact List.mem_singleton_self _
    | _ => cases hnow
  · exact .inl hbefore

end Ledger

/-- The ledger of a run that starts with `l`. -/
def Engine.ledger (g : Engine) (l : Ledger) : List Operation → Ledger
  | [] => l
  | op :: r => (g.perform op).1.ledger (l.after g op) r

/-! ## When it is due -/

namespace Network

variable {n : Network} {w : Wiring} {window : Nat} {now : Instant} {s : Staged}

/-- Twice the window is no less than the window, and a burst is no older than the change before it. -/
theorem window_of_ceiling {window last since now : Int} (h0 : 0 ≤ window) (h : last ≤ since)
    (hceiling : min (2 * window) longest < now - since) (hlongest : window ≤ longest) :
    window < now - last := by
  omega

/-- For a burst that started after the last change the window alone decides. -/
theorem isDue_iff {t : TopologyStatus} (h : ∀ last ∈ t.appliedAt, last ≤ s.since) :
    isDue window now t s = true ↔ ∀ last ∈ t.appliedAt, min (window : Int) longest < now - last := by
  unfold isDue
  cases hlast : t.appliedAt with
  | none => simp
  | some last =>
    have hlongest : (0 : Int) ≤ longest := by decide
    simp only [Option.all_some, Bool.or_eq_true, decide_eq_true_eq, Option.mem_some_iff,
      forall_eq']
    constructor
    · rintro (hlong | hceiling)
      · exact hlong
      · exact window_of_ceiling (by omega) (h last hlast) hceiling (by omega)
    · exact .inl

theorem heartbeat_idle (h : n.topology.staged = none) : n.heartbeat w window now = (n, false) := by
  simp [heartbeat, h]

theorem heartbeat_early (h : n.topology.staged = some s) (hdue : isDue window now n.topology s = false) :
    n.heartbeat w window now = (n, false) := by
  simp [heartbeat, h, hdue]

theorem heartbeat_due (h : n.topology.staged = some s) (hdue : isDue window now n.topology s = true) :
    n.heartbeat w window now = (n.withStaged none).applyTopology w now s.topology := by
  simp only [heartbeat, h, hdue, if_true]
  rfl

end Network

namespace Engine

/-- What waits stays, is dropped for the hash of what is in force, or is put in force. -/
theorem heartbeat_outcome (g : Engine) (now : Instant) :
    (g.heartbeat now = (g, false) ∧ ∀ s ∈ g.network.topology.staged,
      isDue g.config.window now g.network.topology s = false) ∨
    (∃ s, g.network.topology.staged = some s ∧ isDue g.config.window now g.network.topology s = true ∧
      g.network.topology.hash? = some s.topology.hash ∧ g.heartbeat now = (g.withStaged none, false)) ∨
    (∃ s, g.network.topology.staged = some s ∧ isDue g.config.window now g.network.topology s = true ∧
      g.network.topology.hash? ≠ some s.topology.hash ∧ (g.heartbeat now).2 = true ∧
      (g.heartbeat now).1.network.topology =
        renewed (g.network.withStaged none).topology now s.topology) := by
  unfold heartbeat
  cases hs : g.network.topology.staged with
  | none =>
    rw [heartbeat_idle hs]
    exact .inl ⟨rfl, by simp⟩
  | some s =>
    cases hdue : isDue g.config.window now g.network.topology s with
    | false =>
      rw [heartbeat_early hs hdue]
      refine .inl ⟨rfl, ?_⟩
      rintro x ⟨⟩
      exact hdue
    | true =>
      rw [heartbeat_due hs hdue]
      by_cases hsame : g.network.topology.hash? = some s.topology.hash
      · rw [applyTopology_same (n := g.network.withStaged none) hsame]
        exact .inr (.inl ⟨s, rfl, hdue, hsame, rfl⟩)
      · rw [applyTopology_new (n := g.network.withStaged none) hsame]
        exact .inr (.inr ⟨s, rfl, hdue, hsame, rfl, refreshLinks_topology ..⟩)

end Engine

/-! ## The ledger is right -/

/-- The topology is as the ledger has it, and what waits came after the last change. -/
structure Accounted (t : TopologyStatus) (l : Ledger) : Prop where
  staged : t.staged = Staged.ofBurst? l.waiting
  applied : t.appliedAt = l.changed
  since : ∀ last ∈ l.changed, ∀ a ∈ l.waiting, last ≤ a.2

namespace Accounted

variable {t : TopologyStatus} {l : Ledger} {g : Engine} {now : Instant}

theorem empty : Accounted .fresh .empty where
  staged := rfl
  applied := rfl
  since _ h := by cases h

/-- A burst starts after the last change. -/
theorem appliedAt_le (h : Accounted t l) {s : Staged} (hs : t.staged = some s) :
    ∀ last ∈ t.appliedAt, last ≤ s.since := by
  intro last hlast
  obtain ⟨a, ha, hsince⟩ := Staged.ofBurst?_eq_some (h.staged ▸ hs)
  rw [← hsince]
  exact h.since last (h.applied ▸ hlast) a ha

/-- What waits when everything is taken. -/
theorem renew (x : Option Instant) {t : TopologyStatus} (hstaged : t.staged = none)
    (happlied : t.appliedAt = x) : Accounted t ⟨[], x⟩ where
  staged := hstaged
  applied := happlied
  since _ _ _ ha := by cases ha

theorem stage (h : Accounted t l) (u : Topology) (hlater : ∀ last ∈ l.changed, last ≤ now) :
    Accounted { t with staged := some ⟨u, (t.staged.map (·.since)).getD now⟩ }
      { l with waiting := l.waiting ++ [(u, now)] } where
  staged := by
    rw [Staged.ofBurst?_snoc, h.staged]
  applied := h.applied
  since last hlast a ha := by
    rcases List.mem_append.mp ha with ha | ha
    · exact h.since last hlast a ha
    · rw [List.mem_singleton.mp ha]
      exact hlater last hlast

theorem updateAll {n : Network} (h : Accounted n.topology l) (config : EngineConfig) (w : Wiring)
    {us : List Update} (hlater : ∀ last ∈ l.changed, ∀ a ∈ announced us now, last ≤ a.2) :
    Accounted (Outcome.forEach us (Update.apply config w now) n).network.topology
      { l with waiting := l.waiting ++ announced us now } := by
  induction us generalizing n l with
  | nil =>
    rw [announced, List.filterMap_nil, List.map_nil, List.append_nil]
    exact h
  | cons u r ih =>
    rw [Outcome.forEach_cons, Outcome.andThen_network]
    cases hu : u.announced? with
    | none =>
      have hne : ∀ t, u ≠ .stage t := by
        rintro t rfl
        cases hu
      have hsame := topology_apply_of_ne config w now hne n
      have hr : announced (u :: r) now = announced r now := by
        rw [announced, List.filterMap_cons_none hu, announced]
      rw [hr] at hlater ⊢
      exact ih (hsame ▸ h) hlater
    | some t =>
      have heq : u = .stage t := by
        cases u <;> simp_all [Update.announced?]
      subst heq
      have hr : announced (.stage t :: r) now = (t, now) :: announced r now := by
        rw [announced, List.filterMap_cons_some hu, List.map_cons, announced]
      rw [hr] at hlater ⊢
      have hstaged := h.stage t fun last hlast => hlater last hlast (t, now) List.mem_cons_self
      have hrest := ih (n := n.stage now t) hstaged
        fun last hlast a ha => hlater last hlast a (List.mem_cons_of_mem _ ha)
      rw [List.append_assoc, List.singleton_append] at hrest
      exact hrest

theorem heartbeat (h : Accounted g.network.topology l) (now : Instant) :
    Accounted (g.heartbeat now).1.network.topology (l.after g (.heartbeat now)) := by
  rcases Engine.heartbeat_outcome g now with ⟨heq, -⟩ | ⟨s, hs, -, -, heq⟩ | ⟨s, hs, -, -, hchanged, htop⟩
  · have htakes : g.takes (.heartbeat now) = false := by
      cases hs : g.network.topology.staged <;> simp [Engine.takes, heq, hs]
    rw [l.after_silent htakes (by simp [Engine.changesAt?, heq]) rfl, heq]
    exact h
  · have hledger : l.after g (.heartbeat now) = ⟨[], l.changed⟩ := by
      simp [Ledger.after, Engine.takes, Engine.changesAt?, heq, hs, Engine.withStaged, withStaged]
    rw [hledger, heq]
    exact renew _ rfl h.applied
  · have hledger : l.after g (.heartbeat now) = ⟨[], some now⟩ := by
      simp [Ledger.after, Engine.takes, Engine.changesAt?, hs, hchanged, htop, renewed, withStaged]
    rw [hledger, htop]
    exact renew _ rfl rfl

theorem restore (h : Accounted g.network.topology l) (now : Instant) (s : Snapshot) :
    Accounted (g.restore now s).1.network.topology (l.after g (.restore now s)) := by
  have hnet : (g.restore now s).1.network = (g.network.restore g.config g.wiring now s).1.network := rfl
  by_cases hall : ∀ m ∈ Family.metrics g.config.vlanMetric, s.contains m = true
  · have hpasses : g.passes s = true := List.all_eq_true.mpr hall
    have hledger : l.after g (.restore now s) = ⟨[], some now⟩ := by
      simp [Ledger.after, Engine.takes, Engine.changesAt?, hpasses]
    have hfresh := reported_topology g.config g.wiring now s
    rw [hledger, hnet, restore_outcome g.config g.wiring now hall, Outcome.map_network,
      finish_topology g.config g.wiring now s hfresh]
    exact renew _ rfl rfl
  · have hpasses : g.passes s = false := by
      rw [← Bool.not_eq_true]
      exact fun hp => hall (List.all_eq_true.mp hp)
    have htakes : g.takes (.restore now s) = false := hpasses
    have hchanges : g.changesAt? (.restore now s) = none := by simp [Engine.changesAt?, hpasses]
    rw [l.after_silent htakes hchanges rfl, hnet, restore_missing g.config g.wiring now hall]
    exact h

theorem perform {op : Operation} (h : Accounted g.network.topology l)
    (hlater : ∀ last ∈ l.changed, ∀ t ∈ op.times, last ≤ t) :
    Accounted (g.perform op).1.network.topology (l.after g op) := by
  cases op with
  | update now u =>
    exact h.updateAll g.config g.wiring fun last hlast a ha =>
      hlater last hlast a.2 (List.mem_map_of_mem ha)
  | dispatch e =>
    exact h.updateAll g.config g.wiring fun last hlast a ha =>
      hlater last hlast a.2 (List.mem_map_of_mem ha)
  | heartbeat now => exact h.heartbeat now
  | restore now s => exact h.restore now s
  | configure now w =>
    have htop : (g.perform (.configure now w)).1.network.topology = g.network.topology :=
      refreshLinks_topology g.network w now
    rw [l.after_silent rfl rfl rfl, htop]
    exact h
  | authorize mac a =>
    have htop : (g.perform (.authorize mac a)).1.network.topology = g.network.topology := by
      rw [Engine.perform_authorize]
      cases ha : g.network.authorize mac a with
      | error => rfl
      | ok n =>
        obtain ⟨_, _, rfl⟩ := authorize_ok ha
        rfl
    rw [l.after_silent rfl rfl rfl, htop]
    exact h
  | setReadiness r =>
    rw [l.after_silent rfl rfl rfl]
    exact h

end Accounted

/-! ## Runs -/

/-- The times given to announcements, heartbeats and restores, in the order of the operations. -/
def clock (ops : List Operation) : List Instant := ops.flatMap Operation.times

theorem clock_cons (op : Operation) (r : List Operation) : clock (op :: r) = op.times ++ clock r :=
  List.flatMap_cons

theorem clock_append (a b : List Operation) : clock (a ++ b) = clock a ++ clock b :=
  List.flatMap_append

namespace Engine

variable {g : Engine} {l : Ledger} {ops : List Operation}

theorem ledger_append (g : Engine) (l : Ledger) (a b : List Operation) :
    g.ledger l (a ++ b) = (g.run a).1.ledger (g.ledger l a) b := by
  induction a generalizing g l with
  | nil => rfl
  | cons op r ih =>
    rw [List.cons_append, ledger, ih, run_cons, ledger]

theorem accounted_run (h : Accounted g.network.topology l) (ordered : (clock ops).Pairwise (· ≤ ·))
    (later : ∀ last ∈ l.changed, ∀ t ∈ clock ops, last ≤ t) :
    Accounted (g.run ops).1.network.topology (g.ledger l ops) := by
  induction ops generalizing g l with
  | nil => exact h
  | cons op r ih =>
    rw [clock_cons] at ordered later
    obtain ⟨-, hr, hop⟩ := List.pairwise_append.mp ordered
    rw [run_cons, ledger]
    refine ih (h.perform fun last hlast t ht => later last hlast t (List.mem_append_left _ ht)) hr ?_
    -- the last change is an earlier one or made now; both are no later than what is to come
    intro last hlast t ht
    rcases Ledger.changed_after hlast with hlast | hlast
    · exact later last hlast t (List.mem_append_right _ ht)
    · exact hop last hlast t ht

/-- Changes come one after the other. -/
theorem changed_ledger {earlier : Instant} (hl : l.changed = some earlier)
    (ordered : (clock ops).Pairwise (· ≤ ·)) (later : ∀ t ∈ clock ops, earlier ≤ t) :
    ∃ last, (g.ledger l ops).changed = some last ∧ earlier ≤ last := by
  induction ops generalizing g l earlier with
  | nil => exact ⟨earlier, hl, Int.le_refl _⟩
  | cons op r ih =>
    rw [clock_cons] at ordered later
    obtain ⟨-, hr, hop⟩ := List.pairwise_append.mp ordered
    obtain ⟨x, hx⟩ : ∃ x, (l.after g op).changed = some x := by
      rw [Ledger.after, hl]
      cases g.changesAt? op with
      | none => exact ⟨earlier, rfl⟩
      | some x => exact ⟨x, rfl⟩
    have hlater : earlier ≤ x ∧ ∀ t ∈ clock r, x ≤ t := by
      rcases Ledger.changed_after hx with hsame | hnow
      · obtain rfl : earlier = x := Option.some.inj (hl.symm.trans hsame)
        exact ⟨Int.le_refl _, fun t ht => later t (List.mem_append_right _ ht)⟩
      · exact ⟨later x (List.mem_append_left _ hnow), hop x hnow⟩
    obtain ⟨last, hlast, hle⟩ := ih hx hr hlater.2
    exact ⟨last, hlast, Int.le_trans hlater.1 hle⟩

theorem takes_heartbeat (g : Engine) (now : Instant) :
    g.takes (.heartbeat now) = true ↔
      ∃ s, g.network.topology.staged = some s ∧ isDue g.config.window now g.network.topology s = true := by
  rcases heartbeat_outcome g now with ⟨heq, hearly⟩ | ⟨s, hs, hdue, -, heq⟩ | ⟨s, hs, hdue, -, -, htop⟩
  · constructor
    · intro htakes
      cases hs : g.network.topology.staged <;> simp [takes, heq, hs] at htakes
    · rintro ⟨s, hs, hdue⟩
      rw [hearly s hs] at hdue
      cases hdue
  · exact iff_of_true (by simp [takes, hs, heq, withStaged, Network.withStaged]) ⟨s, hs, hdue⟩
  · exact iff_of_true (by simp [takes, hs, htop, renewed, Network.withStaged]) ⟨s, hs, hdue⟩

/-- What is not taken stays as it is. -/
theorem heartbeat_of_not_takes {now : Instant} (h : g.takes (.heartbeat now) = false) :
    g.heartbeat now = (g, false) := by
  have hearly : ∀ s, g.network.topology.staged = some s →
      ¬ isDue g.config.window now g.network.topology s = true := by
    intro s hs hdue
    rw [(takes_heartbeat g now).mpr ⟨s, hs, hdue⟩] at h
    cases h
  rcases heartbeat_outcome g now with ⟨heq, -⟩ | ⟨s, hs, hdue, -⟩ | ⟨s, hs, hdue, -⟩
  · exact heq
  · exact absurd hdue (hearly s hs)
  · exact absurd hdue (hearly s hs)

theorem heartbeat_of_takes {now : Instant} {s : Staged} (h : g.takes (.heartbeat now) = true)
    (hs : g.network.topology.staged = some s) :
    if g.network.topology.hash? = some s.topology.hash then
      g.heartbeat now = (g.withStaged none, false)
    else
      (g.heartbeat now).2 = true ∧ (g.heartbeat now).1.network.topology.applied = s.topology ∧
        (g.heartbeat now).1.network.topology.appliedAt = some now := by
  rcases heartbeat_outcome g now with ⟨heq, -⟩ | ⟨x, hx, -, hsame, heq⟩ | ⟨x, hx, -, hnew, hchanged, htop⟩
  · simp [takes, heq, hs] at h
  · obtain rfl : x = s := Option.some.inj (hx.symm.trans hs)
    rw [if_pos hsame]
    exact heq
  · obtain rfl : x = s := Option.some.inj (hx.symm.trans hs)
    rw [if_neg hnew, htop]
    exact ⟨hchanged, rfl, rfl⟩

theorem takes_of_changes {now : Instant} (h : (g.heartbeat now).2 = true) :
    g.takes (.heartbeat now) = true := by
  rw [← Bool.not_eq_false]
  intro hnot
  rw [heartbeat_of_not_takes hnot] at h
  cases h

end Engine

namespace Accounted

variable {g : Engine} {l : Ledger}

/-- Only the window counts, as no burst started before the last change. -/
theorem takes_iff (h : Accounted g.network.topology l) (now : Instant) :
    g.takes (.heartbeat now) = true ↔
      l.waiting ≠ [] ∧ ∀ last ∈ l.changed, min (g.config.window : Int) longest < now - last := by
  have hdue {s : Staged} (hs : g.network.topology.staged = some s) :
      isDue g.config.window now g.network.topology s = true ↔
        ∀ last ∈ l.changed, min (g.config.window : Int) longest < now - last := by
    rw [isDue_iff (h.appliedAt_le hs), h.applied]
  rw [Engine.takes_heartbeat]
  constructor
  · rintro ⟨s, hs, hready⟩
    refine ⟨?_, (hdue hs).mp hready⟩
    intro hnone
    rw [h.staged, hnone] at hs
    cases hs
  · rintro ⟨hfilled, hlong⟩
    obtain ⟨s, hs⟩ := Staged.ofBurst?_filled hfilled
    rw [← h.staged] at hs
    exact ⟨s, hs, (hdue hs).mpr hlong⟩

/-- A heartbeat leaves something waiting only shortly after the last change. -/
theorem waits (h : Accounted g.network.topology l) {now : Instant}
    (hleft : (g.heartbeat now).1.network.topology.staged ≠ none) :
    ∃ last, l.changed = some last ∧ now - last ≤ min (g.config.window : Int) longest := by
  have hnot : g.takes (.heartbeat now) = false := by
    rw [← Bool.not_eq_true]
    exact fun ht => hleft (Option.isNone_iff_eq_none.mp (Bool.and_eq_true_iff.mp ht).2)
  have hfilled : l.waiting ≠ [] := by
    intro hnone
    rw [Engine.heartbeat_of_not_takes hnot, h.staged, hnone] at hleft
    exact hleft rfl
  have hshort : ¬ ∀ last ∈ l.changed, min (g.config.window : Int) longest < now - last := by
    intro hlong
    rw [(h.takes_iff now).mpr ⟨hfilled, hlong⟩] at hnot
    cases hnot
  cases hlast : l.changed with
  | none => exact absurd (by simp [hlast]) hshort
  | some last =>
    refine ⟨last, rfl, Int.not_lt.mp fun hlong => hshort ?_⟩
    rw [hlast]
    rintro x ⟨⟩
    exact hlong

end Accounted

namespace Engine

/-- A heartbeat that changes the topology is the last change, or there is a later one. -/
theorem changed_since {g : Engine} {l : Ledger} {before between : List Operation} {earlier : Instant}
    (ordered : (clock (before ++ .heartbeat earlier :: between)).Pairwise (· ≤ ·))
    (hchanges : ((g.run before).1.heartbeat earlier).2 = true) :
    ∃ last, (g.ledger l (before ++ .heartbeat earlier :: between)).changed = some last ∧
      earlier ≤ last := by
  rw [clock_append, clock_cons] at ordered
  obtain ⟨-, hbetween, hlater⟩ := List.pairwise_append.mp (List.pairwise_append.mp ordered).2.1
  rw [ledger_append, ledger]
  refine changed_ledger ?_ hbetween fun t ht => hlater earlier (List.mem_singleton_self _) t ht
  simp [Ledger.after, changesAt?, hchanges]

/-- What is to be said of the engine after a run and of the next heartbeat. -/
structure Coalesced (config : EngineConfig) (ops : List Operation) (g : Engine) (l : Ledger) : Prop where
  /-- What waits is the latest announcement since one was taken, with the time of the first. -/
  staged : g.network.topology.staged = Staged.ofBurst? l.waiting
  applied : g.network.topology.appliedAt = l.changed
  /-- Only the window counts, not the ceiling on waiting. -/
  takes : ∀ now, g.takes (.heartbeat now) = true ↔
    l.waiting ≠ [] ∧ ∀ last ∈ l.changed, min (config.window : Int) longest < now - last
  rests : ∀ now, g.takes (.heartbeat now) = false → g.heartbeat now = (g, false)
  /-- What is in force already, or has the hash of what is in force, moves nothing. -/
  keeps : ∀ now s, g.takes (.heartbeat now) = true → g.network.topology.staged = some s →
    (l.changed.isSome = true ∧ g.network.topology.applied = s.topology) ∨
      g.network.topology.hash? = some s.topology.hash →
    g.heartbeat now = (g.withStaged none, false)
  /-- What else is taken is put in force. -/
  puts : ∀ now s, g.takes (.heartbeat now) = true → g.network.topology.staged = some s →
    g.network.topology.hash? ≠ some s.topology.hash →
    (g.heartbeat now).2 = true ∧ (g.heartbeat now).1.network.topology.applied = s.topology ∧
      (g.heartbeat now).1.network.topology.appliedAt = some now
  waits : ∀ now, (g.heartbeat now).1.network.topology.staged ≠ none →
    ∃ last, l.changed = some last ∧ now - last ≤ min (config.window : Int) longest
  apart : ∀ before earlier between now, ops = before ++ .heartbeat earlier :: between →
    (((fresh config).run before).1.heartbeat earlier).2 = true → (g.heartbeat now).2 = true →
    min (config.window : Int) longest < now - earlier

/-- However announcements, heartbeats and restores follow one another, as long as their times do not
run backwards: a burst of announcements is applied by the first heartbeat that comes more than a window
after the last change, and announcements of what is in force never put that off. The times are any whole
milliseconds; with parts of a millisecond a window may be over that much earlier or later. -/
theorem run_coalesced (config : EngineConfig) (ops : List Operation)
    (ordered : (clock ops).Pairwise (· ≤ ·)) :
    Coalesced config ops ((fresh config).run ops).1 ((fresh config).ledger .empty ops) := by
  have haccounted : Accounted ((fresh config).run ops).1.network.topology
      ((fresh config).ledger .empty ops) :=
    accounted_run .empty ordered fun last hlast => by cases hlast
  have hconfig : ((fresh config).run ops).1.config = config := run_config (fresh config) ops
  generalize hg : ((fresh config).run ops).1 = g at haccounted hconfig
  generalize hl : (fresh config).ledger .empty ops = l at haccounted
  subst hconfig
  refine ⟨haccounted.staged, haccounted.applied, haccounted.takes_iff,
    fun _ => heartbeat_of_not_takes, ?_, ?_, fun _ => haccounted.waits, ?_⟩
  · intro now s htaken hs hforce
    have hsame : g.network.topology.hash? = some s.topology.hash := by
      rcases hforce with ⟨hchanged, hsame⟩ | hsame
      · rw [← haccounted.applied] at hchanged
        rw [TopologyStatus.hash?_eq hchanged, hsame]
      · exact hsame
    have htaken := heartbeat_of_takes htaken hs
    rwa [if_pos hsame] at htaken
  · intro now s htaken hs hnew
    have htaken := heartbeat_of_takes htaken hs
    rwa [if_neg hnew] at htaken
  · intro before earlier between now hops hbefore hnow
    subst hops
    obtain ⟨last, hlast, hle⟩ := changed_since (l := .empty) ordered hbefore
    have hlong := ((haccounted.takes_iff now).mp (takes_of_changes hnow)).2 last (hl ▸ hlast)
    exact Int.lt_of_lt_of_le hlong (Int.sub_le_sub_left hle now)

section Small

/-- Three announcements within one window, the first of them of what the heartbeat before has applied. -/
def burstOps : List Operation :=
  [ .update 0 (.stage .empty), .heartbeat 1000, .update 1500 (.stage .empty),
    .update 2000 (.stage ⟨some "sw1", ∅, ∅⟩), .heartbeat 3000, .update 3200 (.stage ⟨some "sw2", ∅, ∅⟩) ]

theorem run_coalesced_small :
    (clock burstOps).Pairwise (· ≤ ·) ∧
      Coalesced .usual burstOps ((fresh .usual).run burstOps).1 ((fresh .usual).ledger .empty burstOps) := by
  have ordered : (clock burstOps).Pairwise (· ≤ ·) := by decide
  exact ⟨ordered, run_coalesced .usual burstOps ordered⟩

example : ((fresh .usual).run burstOps).1.network.topology.staged = some ⟨⟨some "sw2", ∅, ∅⟩, 1500⟩ := by
  decide

example : (((fresh .usual).run burstOps).1.heartbeat 3000).2 = false ∧
    (((fresh .usual).run burstOps).1.heartbeat 3001).2 = true := by
  decide

end Small
end Engine
end Fabric
