import Fabric.Proofs.Stack

/-! A snapshot replayed. `Snapshot.liveRun` lists the operations that a live controller would have
asked for to get where the snapshot is: each sample on its own as an update, one LACP report for
each member, an announcement of the topology that shows, and the packet counts at the end. This
file proves that the rebuild inside a restore takes the samples through the updates of that run
(`rebuild_outcome`), though from a network that has no configured links yet. -/

namespace Fabric

open Network

/-! ## The live run -/

namespace Network.Family

/-- So many reloads, one after the other. -/
def reloadUpdates (kind : String) (s : Sample) : List Update :=
  match sampleSwitch? s, count? s.value with
  | some name, some n => List.replicate n.toNat (.reload name (sampleDpId? s) (some kind) none)
  | _, _ => []

/-- What a live controller would have reported for the sample. One that makes no sense, and one
of a host that has aged out, reports nothing; neither do the families that are only gathered. -/
def updates : Family → Sample → List Update
  | .dpStatus, s =>
    match sampleSwitch? s with
    | some name => [.connection name (sampleDpId? s) (s.value > 0)]
    | none => []
  | .portStatus, s =>
    match samplePlace? s with
    | some e => [.portState e (s.value > 0)]
    | none => []
  | .stackState, s =>
    match samplePlace? s, code? s.value with
    | some e, some code => [.stackState e code]
    | _, _ => []
  | .learnedPort, s =>
    match sampleSwitch? s, s.label? "eth_src", portNumber? s.value with
    | some name, some mac, some port =>
      if port = 0 then []
      else [.learn ⟨name, port⟩ (.ofText mac) ⟨none, (s.label? "vid").bind fun v => Text.u16? v.toList⟩]
    | _, _, _ => []
  | .coldReloads, s => reloadUpdates "cold" s
  | .warmReloads, s => reloadUpdates "warm" s
  | .lacpState, _ | .lacpRole, _ | .rootHop, _ | .stackRoot, _ | .vlanPackets, _ | .eventId, _ => []

end Network.Family

/-- A port and the code that a sample has of it. -/
def sampleCode? (x : Sample) : Option (Endpoint × Int) := do
  let e ← samplePlace? x
  let code ← code? x.value
  some (e, code)

/-- A switch and its root hop port. -/
def sampleHop? (x : Sample) : Option (String × UInt32) := do
  let name ← sampleSwitch? x
  let port ← portNumber? x.value
  some (name, port)

/-- The last code that a list of reports has of a port. -/
def lastOf (l : List (Endpoint × Int)) (e : Endpoint) : Option Int :=
  (l.reverse.find? (·.1 = e)).map (·.2)

namespace Snapshot

variable (vlanMetric : String) (s : Snapshot)

def sampleUpdates : List Update :=
  Family.all.flatMap fun f => (s.samples (f.metric vlanMetric)).flatMap f.updates

/-- The state codes reported of ports, in order. -/
def codes (f : Family) : List (Endpoint × Int) :=
  (s.samples (f.metric vlanMetric)).filterMap sampleCode?

/-- The ports that an LACP state or role is reported of. -/
def lacpMembers : KeySet Endpoint :=
  .ofList ((s.codes vlanMetric .lacpState ++ s.codes vlanMetric .lacpRole).map (·.1))

/-- One report for each member in ascending order, with the last state and the last role. -/
def lagUpdates : List Update :=
  (s.lacpMembers vlanMetric).keys.map fun e =>
    .lag e ((lastOf (s.codes vlanMetric .lacpState) e).map .ofCode)
      ((lastOf (s.codes vlanMetric .lacpRole) e).map .ofCode)

/-- The datapath id of the root: the last one that is not 0. -/
def rootId : Option UInt64 :=
  (((s.samples (Family.stackRoot.metric vlanMetric)).filterMap (count? ·.value)).filter
    (· ≠ 0)).getLast?

/-- The root hop ports, the last one of a switch that is not 0. -/
def rootHops : List (String × UInt32) :=
  ((s.samples (Family.rootHop.metric vlanMetric)).filterMap sampleHop?).filter (·.2 ≠ 0)

/-- The topology that the snapshot shows, once its other samples are in the network. The root is
the switch that reported its id, or else is configured with it, and a configured link counts when
both ends are up. -/
def topology (w : Wiring) (n : Network) : Topology :=
  { root := (s.rootId vlanMetric).bind (n.nameOfId? w)
    rootHops := .ofList (s.rootHops vlanMetric)
    links := w.stackLinks.filter fun l _ => l.ends.all fun e => n.stackState? e = some .up }

end Snapshot

namespace Engine

/-- A new engine that is told of the wiring, at whatever time, and then of everything that the
snapshot shows but the topology and the packet counts. -/
def liveStart (config : EngineConfig) (w : Wiring) (since now : Instant) (s : Snapshot) :
    List Operation :=
  .configure since w ::
    (s.sampleUpdates config.vlanMetric ++ s.lagUpdates config.vlanMetric).map (.update now)

/-- The rest of it: the topology is announced and the next heartbeat applies it. -/
def liveEnd (config : EngineConfig) (w : Wiring) (now : Instant) (s : Snapshot) (n : Network) :
    List Operation :=
  [.update now (.stage (s.topology config.vlanMetric w n)), .heartbeat now,
    .update now (.vlanSamples (s.samples config.vlanMetric))]

def liveRun (config : EngineConfig) (w : Wiring) (since now : Instant) (s : Snapshot) :
    List Operation :=
  let start := liveStart config w since now s
  start ++ liveEnd config w now s ((fresh config).run start).1.network

end Engine

namespace Network

variable (config : EngineConfig) (w : Wiring) (now : Instant)

/-! ## One sample -/

theorem updateSwitch_updateSwitch (n : Network) (name : String) (f g : Switch → Switch) :
    (n.updateSwitch name f).updateSwitch name g = n.updateSwitch name (fun s => g (f s)) := by
  unfold updateSwitch
  rw [Table.upsert_upsert]

/-- Reloads that are counted one by one add up. -/
theorem forEach_reload (name : String) (dpId : Option UInt64) (kind : Option String) (k : Nat)
    (n : Network) :
    Outcome.forEach (List.replicate (k + 1) (Update.reload name dpId kind none))
        (Update.apply config w now) n =
      .quiet (n.updateSwitch name fun s =>
        { s with
          dpId := dpId.or s.dpId
          reloads := { s.reloads with count := s.reloads.count + (k + 1), kind := kind, last := some now } }) := by
  induction k with
  | zero =>
    rw [List.replicate_succ, List.replicate_zero, Outcome.forEach_singleton]
    rfl
  | succ k ih =>
    rw [List.replicate_succ', Outcome.forEach_append, ih, Outcome.quiet_andThen,
      Outcome.forEach_singleton]
    simp only [Update.apply, reload]
    rw [updateSwitch_updateSwitch]
    congr 2
    funext s
    cases dpId <;> rfl

namespace Rebuild

@[simp] theorem gather_gathered (r : Rebuild) (f : Gathered → Gathered) :
    (r.gather f).gathered = f r.gathered := rfl

@[simp] theorem live_gathered (r : Rebuild) (f : Network → Outcome) : (r.live f).gathered = r.gathered := rfl

theorem reloads_outcome (kind : String) (s : Sample) (r : Rebuild) :
    ((reloads now kind s r).getD r).outcome =
      r.outcome.andThen (Outcome.forEach (Family.reloadUpdates kind s) (Update.apply config w now)) := by
  unfold reloads Family.reloadUpdates
  cases hs : sampleSwitch? s with
  | none => exact (Outcome.andThen_quiet _).symm
  | some name =>
    cases hc : count? s.value with
    | none => exact (Outcome.andThen_quiet _).symm
    | some n =>
      by_cases hn : n = 0
      · subst hn
        exact (Outcome.andThen_quiet _).symm
      · obtain ⟨k, hk⟩ : ∃ k, n.toNat = k + 1 := by
          refine Nat.exists_eq_succ_of_ne_zero fun h => hn ?_
          exact UInt64.toNat_inj.mp h
        have hlive := fun m =>
          forEach_reload config w now name (sampleDpId? s) (some kind) k m
        simp only [Option.bind_eq_bind, Option.bind_some, if_neg hn, Option.getD_some, hk]
        exact congrArg r.outcome.andThen (funext fun m => (hlive m).symm)

theorem live_outcome (r : Rebuild) (u : Update) :
    (r.live (u.apply config w now)).outcome =
      r.outcome.andThen (Outcome.forEach [u] (Update.apply config w now)) := by
  rw [live]
  exact congrArg r.outcome.andThen (funext fun n => (Outcome.forEach_singleton u _ n).symm)

/-- A sample goes through the updates that a live controller would have reported for it. -/
theorem take_outcome (f : Family) (r : Rebuild) (s : Sample) :
    (take w now f r s).outcome =
      r.outcome.andThen (Outcome.forEach (f.updates s) (Update.apply config w now)) := by
  have hnone : r.outcome = r.outcome.andThen (Outcome.forEach [] (Update.apply config w now)) :=
    (Outcome.andThen_quiet _).symm
  cases f with
  | dpStatus =>
    simp only [take, take?, Family.updates]
    cases sampleSwitch? s with
    | none => exact hnone
    | some name => exact live_outcome config w now r (.connection name (sampleDpId? s) (s.value > 0))
  | portStatus =>
    simp only [take, take?, Family.updates]
    cases samplePlace? s with
    | none => exact hnone
    | some e => exact live_outcome config w now r (.portState e (s.value > 0))
  | stackState =>
    simp only [take, take?, Family.updates]
    cases samplePlace? s with
    | none => exact hnone
    | some e =>
      cases code? s.value with
      | none => exact hnone
      | some code => exact live_outcome config w now r (.stackState e code)
  | learnedPort =>
    simp only [take, take?, Family.updates]
    cases sampleSwitch? s with
    | none => exact hnone
    | some name =>
      cases s.label? "eth_src" with
      | none => exact hnone
      | some mac =>
        cases portNumber? s.value with
        | none => exact hnone
        | some port =>
          by_cases hp : port = 0
          · simp only [Option.bind_eq_bind, Option.bind_some, if_pos hp]
            exact hnone
          · simp only [Option.bind_eq_bind, Option.bind_some, if_neg hp]
            exact live_outcome config w now r (.learn ⟨name, port⟩ (.ofText mac) _)
  | coldReloads => exact reloads_outcome config w now "cold" s r
  | warmReloads => exact reloads_outcome config w now "warm" s r
  | lacpState | lacpRole =>
    simp only [take, take?, Family.updates]
    cases samplePlace? s with
    | none => exact hnone
    | some e => cases code? s.value <;> exact hnone
  | rootHop =>
    simp only [take, take?, Family.updates]
    cases sampleSwitch? s with
    | none => exact hnone
    | some name => cases portNumber? s.value <;> exact hnone
  | stackRoot | eventId =>
    simp only [take, take?, Family.updates]
    cases count? s.value <;> exact hnone
  | vlanPackets => exact hnone

theorem foldl_take_outcome (f : Family) (l : List Sample) (r : Rebuild) :
    (l.foldl (take w now f) r).outcome =
      r.outcome.andThen (Outcome.forEach (l.flatMap f.updates) (Update.apply config w now)) := by
  induction l generalizing r with
  | nil => exact (Outcome.andThen_quiet _).symm
  | cons s rest ih =>
    rw [List.foldl_cons, ih, take_outcome config, Outcome.andThen_assoc, List.flatMap_cons]
    exact congrArg r.outcome.andThen (funext fun n => (Outcome.forEach_append _ _ _ n).symm)

theorem foldl_takeFamily_outcome (s : Snapshot) (fs : List Family) (r : Rebuild) :
    (fs.foldl (takeFamily config.vlanMetric w now s) r).outcome =
      r.outcome.andThen (Outcome.forEach
        (fs.flatMap fun f => (s.samples (f.metric config.vlanMetric)).flatMap f.updates)
        (Update.apply config w now)) := by
  induction fs generalizing r with
  | nil => exact (Outcome.andThen_quiet _).symm
  | cons f rest ih =>
    rw [List.foldl_cons, ih, takeFamily, foldl_take_outcome config, Outcome.andThen_assoc,
      List.flatMap_cons]
    exact congrArg r.outcome.andThen (funext fun n => (Outcome.forEach_append _ _ _ n).symm)

/-- The rebuild takes the updates of the snapshot, one after the other, from an empty network. -/
theorem rebuild_outcome (s : Snapshot) :
    (Family.all.foldl (takeFamily config.vlanMetric w now s) start).outcome =
      Outcome.forEach (s.sampleUpdates config.vlanMetric) (Update.apply config w now) .empty := by
  rw [foldl_takeFamily_outcome config]
  exact Outcome.quiet_andThen _ _

end Rebuild
end Network
end Fabric
