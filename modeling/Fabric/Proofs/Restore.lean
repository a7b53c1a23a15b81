import Fabric.Proofs.Gathered

/-! A restore is a live run. The network after a restore is that of a new engine which has been
told of the wiring and then of everything in the snapshot, one report at a time. Whatever else is
proved of live operations therefore needs no second proof for restores (`Kept.run`). -/

namespace Fabric

open Network

/-- A report about a switch, a port or a host: neither an announcement nor packet counts. -/
def Update.isReport : Update → Bool
  | .stage _ | .vlanSamples _ => false
  | _ => true

namespace Network

variable (config : EngineConfig) (w : Wiring) (now : Instant)

/-! ## What a snapshot reports -/

theorem isReport_reloadUpdates (kind : String) (x : Sample) :
    ∀ u ∈ Family.reloadUpdates kind x, u.isReport = true := by
  intro u hu
  unfold Family.reloadUpdates at hu
  split at hu
  · rw [List.eq_of_mem_replicate hu]
    rfl
  · cases hu

theorem isReport_updates (f : Family) (x : Sample) : ∀ u ∈ f.updates x, u.isReport = true := by
  intro u hu
  cases f with
  | coldReloads | warmReloads => exact isReport_reloadUpdates _ x u hu
  | learnedPort =>
    simp only [Family.updates] at hu
    split at hu
    · split at hu
      · cases hu
      · rw [List.mem_singleton.mp hu]
        rfl
    · cases hu
  | dpStatus | portStatus | stackState =>
    simp only [Family.updates] at hu
    split at hu
    · rw [List.mem_singleton.mp hu]
      rfl
    · cases hu
  | lacpState | lacpRole | rootHop | stackRoot | vlanPackets | eventId => cases hu

theorem isReport_reports (s : Snapshot) :
    ∀ u ∈ s.sampleUpdates config.vlanMetric ++ s.lagUpdates config.vlanMetric, u.isReport = true := by
  intro u hu
  rcases List.mem_append.mp hu with h | h
  · obtain ⟨f, _, hf⟩ := List.mem_flatMap.mp h
    obtain ⟨x, _, hx⟩ := List.mem_flatMap.mp hf
    exact isReport_updates f x u hx
  · obtain ⟨e, _, rfl⟩ := List.mem_map.mp h
    rfl

theorem topology_apply_of_ne {u : Update} (hu : ∀ t, u ≠ .stage t) (n : Network) :
    (u.apply config w now n).network.topology = n.topology := by
  cases h : u.isStack with
  | false => exact Update.topology_apply config w now h n
  | true =>
    cases u with
    | stage t => exact absurd rfl (hu t)
    | stackState e code =>
      show (Network.stackState w now e code n).topology = n.topology
      rcases stackState_cases w now e code n with h | ⟨s, h⟩ <;> rw [h]
      exact refreshLinks_topology _ w now
    | _ => cases h

/-- What the snapshot reports as updates, from an empty network. -/
def reported (s : Snapshot) : Outcome :=
  .forEach (s.sampleUpdates config.vlanMetric ++ s.lagUpdates config.vlanMetric)
    (Update.apply config w now) .empty

theorem reported_topology (s : Snapshot) : (reported config w now s).network.topology = .fresh := by
  refine Outcome.forEach_keeps (P := fun n => n.topology = .fresh) (fun u hu n hn => ?_) rfl
  rw [topology_apply_of_ne config w now _ n, hn]
  rintro t rfl
  cases isReport_reports config s _ hu

/-! ## The rebuild -/

/-- What follows the last report: the topology, and the packet counts. -/
def finish (s : Snapshot) (n : Network) : Network :=
  vlanSamples config.threshold now (s.samples config.vlanMetric)
    (n.applyTopology w now (s.topology config.vlanMetric w n)).1

theorem forEach_lagUpdates (s : Snapshot) (n : Network) :
    Outcome.forEach (s.lagUpdates config.vlanMetric) (Update.apply config w now) n =
      .quiet ((s.lacpMembers config.vlanMetric).keys.foldl (fun n e =>
        lag now e ((lastOf (s.codes config.vlanMetric .lacpState) e).map .ofCode)
          ((lastOf (s.codes config.vlanMetric .lacpRole) e).map .ofCode) n) n) := by
  rw [Snapshot.lagUpdates, Outcome.forEach_map]
  exact Outcome.forEach_quiet _ _ n

theorem settle_gathered (s : Snapshot) (n : Network) :
    settle config w now (Family.all.foldl (Rebuild.takeFamily config.vlanMetric w now s) .start).gathered n =
      finish config w now s
        (Outcome.forEach (s.lagUpdates config.vlanMetric) (Update.apply config w now) n).network := by
  rw [Rebuild.rebuild_gathered, forEach_lagUpdates, settle]
  dsimp only
  rw [toList_map_unit, List.foldl_map]
  rfl

/-- With every family at hand the restored network is what the snapshot reports, finished. -/
theorem restore_outcome {s : Snapshot}
    (h : ∀ m ∈ Family.metrics config.vlanMetric, s.contains m = true) (n : Network) :
    (n.restore config w now s).1 = (reported config w now s).map (finish config w now s) := by
  have hfind : (Family.metrics config.vlanMetric).find? (fun m => !s.contains m) = none :=
    List.find?_eq_none.mpr fun m hm => by simp [h m hm]
  unfold restore
  rw [hfind]
  dsimp only
  rw [Rebuild.rebuild_outcome config, reported, Outcome.forEach_append]
  have hquiet := forEach_lagUpdates config w now s
    (Outcome.forEach (s.sampleUpdates config.vlanMetric) (Update.apply config w now) .empty).network
  simp only [Outcome.andThen, Outcome.map, settle_gathered, hquiet, Outcome.quiet_notices,
    Outcome.quiet_network, List.append_nil]

theorem restore_missing {s : Snapshot}
    (h : ¬ ∀ m ∈ Family.metrics config.vlanMetric, s.contains m = true) (n : Network) :
    (n.restore config w now s).1 = .quiet n := by
  unfold restore
  split
  · rfl
  next hfind =>
    refine absurd (fun m hm => ?_) h
    simpa using List.find?_eq_none.mp hfind m hm

/-! ## The live run -/

theorem refreshLinks_empty (w : Wiring) (now : Instant) :
    Network.empty.refreshLinks w now = Network.empty.enroll w := by
  rw [refreshLinks_eq]
  unfold enroll
  congr 1
  apply Table.ext_get?
  intro l
  rw [get?_refreshLinks, get?_enrolled]
  have hstate : Network.empty.linkState l = (TrackedLink.fresh l).state := rfl
  have hentry : Network.empty.linkEntry l = .fresh l := rfl
  have htracks : Network.empty.tracks w l = (w.stackLinks.contains l || Network.empty.links.contains l) := by
    simp [tracks, Network.empty, TopologyStatus.fresh, Topology.empty, Table.contains]
  rw [hentry, TrackedLink.become_of_eq hstate.symm, htracks]
  rfl

/-- With nothing in force an announcement is applied by the next heartbeat. -/
theorem heartbeat_stage {n : Network} (h : n.topology = .fresh) (t : Topology) (since : Instant)
    (window : Nat) :
    (n.stage since t).heartbeat w window now = n.applyTopology w now t := by
  cases n with
  | mk switches links topology egress hosts hostChanges vlans =>
    cases h
    rfl

theorem hash?_ne_of_fresh {n : Network} (h : n.topology = .fresh) (t : Topology) :
    n.topology.hash? ≠ some t.hash := by
  rw [h]
  exact (Option.some_ne_none _).symm

theorem applyTopology_enroll {n : Network} (h : n.topology = .fresh) (t : Topology) :
    ((n.enroll w).applyTopology w now t).1 = (n.applyTopology w now t).1 := by
  have hnew := hash?_ne_of_fresh h t
  rw [applyTopology_new hnew, applyTopology_new (n := n.enroll w) hnew]
  exact refreshLinks_enroll (n.restack n.links (renewed n.topology now t)) w now

end Network

namespace Engine

variable (config : EngineConfig) (w : Wiring) (since now : Instant) (s : Snapshot)

theorem run_liveStart :
    (fresh config).run (liveStart config w since now s) =
      (⟨config, w, (reported config w now s).network.enroll w, .lost none⟩,
        (reported config w now s).notices) := by
  have hcomm := Outcome.forEach_comm (g := enroll w)
    (fun u _ n => Update.apply_enroll config w now u n)
    (l := s.sampleUpdates config.vlanMetric ++ s.lagUpdates config.vlanMetric) Network.empty
  rw [liveStart, run_cons, run_updates]
  simp only [perform, configure, fresh, refreshLinks_empty, updateAll, hcomm, List.nil_append]
  rfl

theorem run_liveEnd {n : Network} (h : n.topology = .fresh) (r : Readiness) :
    (Engine.mk config w (n.enroll w) r).run (liveEnd config w now s (n.enroll w)) =
      (⟨config, w, finish config w now s n, r⟩, []) := by
  have ht : (n.enroll w).topology = .fresh := h
  have hs : s.topology config.vlanMetric w (n.enroll w) = s.topology config.vlanMetric w n := rfl
  have hbeat := heartbeat_stage w now ht (s.topology config.vlanMetric w n) now config.window
  simp only [liveEnd, run_cons, run_nil, perform, update, updateAll, Outcome.forEach_singleton,
    Update.apply, Outcome.quiet, heartbeat, hs, hbeat, applyTopology_enroll w now h]
  rfl

theorem run_liveRun :
    (fresh config).run (liveRun config w since now s) =
      (⟨config, w, finish config w now s (reported config w now s).network, .lost none⟩,
        (reported config w now s).notices) := by
  rw [liveRun, run_append, run_liveStart]
  dsimp only
  rw [run_liveEnd config w now s (reported_topology config w now s), List.append_nil]

end Engine

namespace Network

/-- A restore puts a topology in force where none was. -/
theorem finish_topology (config : EngineConfig) (w : Wiring) (now : Instant) (s : Snapshot)
    {n : Network} (h : n.topology = .fresh) :
    (finish config w now s n).topology = renewed .fresh now (s.topology config.vlanMetric w n) := by
  show (n.applyTopology w now _).1.topology = _
  rw [applyTopology_new (hash?_ne_of_fresh h _), refreshLinks_topology, h]

theorem finish_staged (config : EngineConfig) (w : Wiring) (now : Instant) (s : Snapshot)
    {n : Network} (h : n.topology = .fresh) : (finish config w now s n).topology.staged = none := by
  rw [finish_topology config w now s h]
  rfl

/-- The number that a restore reports comes from any sample of the last event that is usable. -/
theorem restore_ok (config : EngineConfig) (w : Wiring) (now : Instant) (n : Network) {s : Snapshot}
    (h : ∀ m ∈ Family.metrics config.vlanMetric, s.contains m = true)
    (numbered : ∃ x ∈ s.samples "faucet_event_id", ∃ k : Nat, whole? x.value = some (k : Int)) :
    ∃ id, (n.restore config w now s).2 = .ok id := by
  have hfind : (Family.metrics config.vlanMetric).find? (fun m => !s.contains m) = none :=
    List.find?_eq_none.mpr fun m hm => by simp [h m hm]
  have hids : (s.samples "faucet_event_id").filterMap (count? ·.value) ≠ [] := by
    obtain ⟨x, hx, k, hk⟩ := numbered
    have hcount : count? x.value = some (min k Text.maxU64).toUInt64 := by
      rw [count?, hk]
      simp
    exact List.ne_nil_of_mem (List.mem_filterMap.mpr ⟨x, hx, hcount⟩)
  obtain ⟨id, hid⟩ := Option.isSome_iff_exists.mp (Rebuild.foldl_laterEvent_isSome hids none)
  refine ⟨id, ?_⟩
  unfold restore
  rw [hfind]
  dsimp only
  rw [Rebuild.rebuild_gathered]
  dsimp only
  rw [hid]

end Network

/-! ## Restores and live runs -/

/-- Take any engine, however it got where it is, and a snapshot that has every family and a usable
number of the last event. The restore succeeds; the network and the notices that it leaves are
those of a new engine of the same configuration and wiring that only ever saw live reports. -/
theorem Engine.restore_eq_liveRun (g : Engine) (since now : Instant) (s : Snapshot)
    (families : ∀ m ∈ g.neededMetrics, s.contains m = true)
    (numbered : ∃ x ∈ s.samples "faucet_event_id", ∃ k : Nat, whole? x.value = some (k : Int)) :
    let live := (Engine.fresh g.config).run (Engine.liveRun g.config g.wiring since now s)
    (∃ id, (g.restore now s).2.2 = .ok id) ∧
      (g.restore now s).1.network = live.1.network ∧
      (g.restore now s).2.1 = live.2 ∧
      (g.restore now s).1.network.topology.staged = none := by
  intro live
  have hrestore := restore_outcome g.config g.wiring now families g.network
  have hnetwork : (g.restore now s).1.network =
      finish g.config g.wiring now s (reported g.config g.wiring now s).network := by
    show (g.network.restore g.config g.wiring now s).1.network = _
    rw [hrestore, Outcome.map_network]
  have hnotices : (g.restore now s).2.1 = (reported g.config g.wiring now s).notices := by
    show (g.network.restore g.config g.wiring now s).1.notices = _
    rw [hrestore, Outcome.map_notices]
  refine ⟨restore_ok g.config g.wiring now g.network families numbered, ?_, ?_, ?_⟩
  · rw [hnetwork]
    exact congrArg (·.1.network) (run_liveRun g.config g.wiring since now s).symm
  · rw [hnotices]
    exact congrArg (·.2) (run_liveRun g.config g.wiring since now s).symm
  · rw [hnetwork]
    exact finish_staged g.config g.wiring now s (reported_topology g.config g.wiring now s)

section Small

def labelled (labels : List (String × String)) (x : Float) : Sample := ⟨.ofList labels, x⟩

/-- A stack link, a host, an uplink that came up after its first report, and samples that make no
sense: a port without a number and an event id that is not whole. -/
def smallSnapshot : Snapshot := .ofList
  [("dp_status", [labelled [("dp_name", "sw1"), ("dp_id", "0x1")] 1, labelled [("dp_name", "sw2")] 0]),
    ("port_status", [labelled [("dp_name", "sw2"), ("port", "10")] 1, labelled [("port", "ten")] 1]),
    ("port_stack_state", [labelled [("dp_name", "sw1"), ("port", "1")] 3,
      labelled [("dp_name", "sw2"), ("port", "1")] 3]),
    ("port_lacp_state", [labelled [("dp_name", "sw1"), ("port", "28")] 1,
      labelled [("dp_name", "sw1"), ("port", "28")] 3]),
    ("port_lacp_role", [labelled [("dp_name", "sw1"), ("port", "28")] 1]),
    ("learned_l2_port", [labelled [("dp_name", "sw2"), ("eth_src", "0E-00-00-00-00-01")] 10]),
    ("faucet_config_reload_cold", [labelled [("dp_name", "sw1")] 2]),
    ("faucet_config_reload_warm", []),
    ("dp_root_hop_port", [labelled [("dp_name", "sw2")] 1]),
    ("faucet_stack_root_dpid", [labelled [] 1]),
    ("vlan_packet_count", [labelled [("vlan", "100")] 12]),
    ("faucet_event_id", [labelled [] 1.5, labelled [] 42])]

def stackPort (peer : Endpoint) : Interface :=
  ⟨none, none, none, some peer, none, none, none, [], none⟩

def smallWiring : Wiring :=
  ⟨.ofList [("sw1", ⟨some 1, none, .ofList [(.number 1, stackPort ⟨"sw2", 1⟩)], ∅⟩)]⟩

def smallEngine : Engine := (Engine.fresh .usual).configure 0 smallWiring

set_option maxRecDepth 4000 in
theorem Engine.restore_eq_liveRun_small :
    let live := (Engine.fresh smallEngine.config).run
      (Engine.liveRun smallEngine.config smallEngine.wiring 0 5 smallSnapshot)
    (∃ id, (smallEngine.restore 5 smallSnapshot).2.2 = .ok id) ∧
      (smallEngine.restore 5 smallSnapshot).1.network = live.1.network ∧
      (smallEngine.restore 5 smallSnapshot).2.1 = live.2 ∧
      (smallEngine.restore 5 smallSnapshot).1.network.topology.staged = none := by
  have families : ∀ m ∈ smallEngine.neededMetrics, smallSnapshot.contains m = true := by
    change ∀ m ∈ Family.metrics "vlan_packet_count", Table.contains smallSnapshot m = true
    decide
  have numbered : ∃ x ∈ smallSnapshot.samples "faucet_event_id",
      ∃ k : Nat, whole? x.value = some (k : Int) :=
    ⟨labelled [] 42, List.mem_cons_of_mem _ (List.mem_singleton.mpr rfl), 42, by decide⟩
  exact Engine.restore_eq_liveRun smallEngine 0 5 smallSnapshot families numbered

end Small
end Fabric
