import Fabric.Feed.Delivery
import Fabric.Proofs.Stack

/-! What an engine makes of events. A record about many ports or hosts does what the events that
the feed makes of it do one by one (`dispatchAll_parts`), and whether a port is up changes with
reports of ports alone. -/

namespace Fabric

open Network

/-! ## What events say -/

namespace Event

variable {e : Event}

theorem portState?_eq_some {r : Report} (h : e.portState? = some r) :
    ∃ d port up, e.dpId = some d ∧ r = .portState e.switchName d port up := by
  unfold portState? at h
  cases hc : e.portChange with
  | none => simp [hc] at h
  | some c =>
    cases hd : e.dpId with
    | none => simp [hc, hd] at h
    | some d =>
      simp only [hc, hd, Option.bind_eq_bind, Option.bind_some, Option.some.injEq] at h
      exact ⟨d, c.port, PortChange.isUp c, rfl, h.symm⟩

theorem portsStatus?_eq_some {r : Report} (h : e.portsStatus? = some r) :
    ∃ d ports, e.dpId = some d ∧ e.portsStatus = some ports ∧ r = .portsStatus e.switchName d ports := by
  unfold portsStatus? at h
  cases hp : e.portsStatus with
  | none => simp [hp] at h
  | some ports =>
    cases hd : e.dpId with
    | none => simp [hp, hd] at h
    | some d =>
      simp only [hp, hd, Option.bind_eq_bind, Option.bind_some, Option.some.injEq] at h
      exact ⟨d, ports, rfl, rfl, h.symm⟩

theorem updates_portState {s : String} {d : UInt64} {port : UInt32} {up : Bool}
    (h : e.portState? = some (.portState s d port up)) : e.updates = [.portState ⟨s, port⟩ up] := by
  simp [updates, reports, h, Report.updates]

theorem updates_portsStatus {s : String} {d : UInt64} {ports : Table UInt32 Bool}
    (hport : e.portState? = none) (h : e.portsStatus? = some (.portsStatus s d ports)) :
    e.updates = ports.toList.map fun (p, up) => .portState ⟨s, p⟩ up := by
  simp [updates, reports, hport, h, Report.updates]

theorem updates_learnedMacs {ls : List Learn} (hport : e.portState? = none)
    (hports : e.portsStatus? = none) (hlearn : e.learn = none) (h : e.learnedMacs = some ls) :
    e.updates = ls.map (Learn.update e.switchName) := by
  simp [updates, reports, hport, hports, hlearn, h, Report.updates]

/-- Reports that are not about the state of ports do not touch it. -/
theorem portState_notMem_updates (hport : e.portState? = none) (hports : e.portsStatus? = none)
    (place : Endpoint) (up : Bool) : Update.portState place up ∉ e.updates := by
  intro hu
  unfold updates at hu
  cases hr : e.reports.head? with
  | none => simp [hr] at hu
  | some r =>
    have hmem : some r ∈ [e.portState?, e.portsStatus?, e.learn.map (.learn e.switchName),
        e.learnedMacs.map (.learnedMacs e.switchName),
        e.expiry.map (fun x => .expiry e.switchName x.port x.mac), e.lagChange.map (.lag e.switchName),
        e.stackChange.map (.stack e.switchName), e.announcement.map .topology, e.reload?,
        e.connection.map (fun reason => .connection e.switchName e.dpId (reason = "cold_start"))] := by
      obtain ⟨x, hx, hxr⟩ := List.mem_filterMap.mp (List.mem_of_head? hr)
      exact hxr ▸ hx
    simp only [hr, Option.map_some, Option.getD_some] at hu
    simp only [hport, hports, reload?, List.mem_cons, List.not_mem_nil, or_false, reduceCtorEq,
      false_or, eq_comm (a := some r), Option.map_eq_some_iff] at hmem
    rcases hmem with ⟨_, _, rfl⟩ | ⟨_, _, rfl⟩ | ⟨_, _, rfl⟩ | ⟨_, _, rfl⟩ | ⟨_, _, rfl⟩ |
      ⟨_, _, rfl⟩ | ⟨_, _, rfl⟩ | ⟨_, _, rfl⟩ <;> simp [Report.updates, Learn.update] at hu

theorem updates_ofPort {d : UInt64} (hd : e.dpId = some d) (port : UInt32) (up : Bool) :
    (e.ofPort port up).updates = [.portState ⟨e.switchName, port⟩ up] := by
  refine updates_portState (d := d) ?_
  simp [portState?, ofPort, bare, hd, PortChange.isUp, switchName]

theorem updates_ofLearn (e : Event) (l : Learn) :
    (e.ofLearn l).updates = [l.update e.switchName] := rfl

end Event

/-! ## Records about many ports or hosts -/

namespace Feed

theorem parts?_eq_some {e : Event} {es : List Event} (h : parts? e = some es) :
    e.portState? = none ∧
      ((∃ d ports, e.dpId = some d ∧ e.portsStatus = some ports ∧
          e.portsStatus? = some (.portsStatus e.switchName d ports) ∧
          es = ports.toList.map fun (p, up) => e.ofPort p up) ∨
        ∃ ls, e.portsStatus? = none ∧ e.learnedMacs = some ls ∧ es = ls.map e.ofLearn) := by
  unfold parts? at h
  split at h
  · cases h
  next hport hports =>
    cases h
    obtain ⟨d, ports, hd, hstatus, heq⟩ := Event.portsStatus?_eq_some hports
    cases heq
    exact ⟨hport, .inl ⟨_, _, hd, hstatus, hports, rfl⟩⟩
  next hport hnot =>
    obtain ⟨ls, hls, rfl⟩ := Option.map_eq_some_iff.mp h
    refine ⟨hport, .inr ⟨ls, ?_, hls, rfl⟩⟩
    rw [← Option.not_isSome_iff_eq_none]
    intro hsome
    obtain ⟨r, hr⟩ := Option.isSome_iff_exists.mp hsome
    obtain ⟨d, ports, _, _, rfl⟩ := Event.portsStatus?_eq_some hr
    exact hnot _ _ _ hr

theorem time_parts {e : Event} {es : List Event} (h : parts? e = some es) :
    ∀ x ∈ es, x.time = e.time := by
  intro x hx
  obtain ⟨_, ⟨d, ports, _, _, _, rfl⟩ | ⟨ls, _, _, rfl⟩⟩ := parts?_eq_some h
  · obtain ⟨_, _, rfl⟩ := List.mem_map.mp hx
    rfl
  · obtain ⟨_, _, rfl⟩ := List.mem_map.mp hx
    rfl

/-- The parts of a record ask for the updates that the record asks for. -/
theorem updates_parts {e : Event} {es : List Event} (h : parts? e = some es)
    (hlearn : e.learnedMacs.isSome = true → e.learn = none) : es.flatMap Event.updates = e.updates := by
  obtain ⟨hport, ⟨d, ports, hd, _, hports, rfl⟩ | ⟨ls, hports, hls, rfl⟩⟩ := parts?_eq_some h
  · rw [Event.updates_portsStatus hport hports, List.flatMap_map]
    simp only [Event.updates_ofPort hd]
    exact (List.map_eq_flatMap).symm
  · rw [Event.updates_learnedMacs hport hports (hlearn (by rw [hls]; rfl)) hls, List.flatMap_map]
    simp only [Event.updates_ofLearn]
    exact (List.map_eq_flatMap).symm

end Feed

/-! ## Runs over events -/

namespace Engine

/-- Takes in one event after the other. -/
def dispatchAll (g : Engine) (es : List Event) : Engine × List Notice := g.run (es.map .dispatch)

theorem dispatchAll_cons (g : Engine) (e : Event) (r : List Event) :
    g.dispatchAll (e :: r) =
      (((g.dispatch e).1.dispatchAll r).1, (g.dispatch e).2 ++ ((g.dispatch e).1.dispatchAll r).2) :=
  run_cons g (.dispatch e) (r.map .dispatch)

theorem dispatchAll_append (g : Engine) (a b : List Event) :
    g.dispatchAll (a ++ b) =
      (((g.dispatchAll a).1.dispatchAll b).1, (g.dispatchAll a).2 ++ ((g.dispatchAll a).1.dispatchAll b).2) := by
  rw [dispatchAll, List.map_append, run_append]
  rfl

/-- An event that changes nothing need not come. -/
theorem dispatchAll_skip {g : Engine} {e : Event} (h : g.dispatch e = (g, [])) (r : List Event) :
    g.dispatchAll (e :: r) = g.dispatchAll r := by
  rw [dispatchAll_cons, h]
  rfl

/-- Events of one time are their updates, one after the other. -/
theorem dispatchAll_same_time {es : List Event} {t : Float} (h : ∀ e ∈ es, e.time = t) (g : Engine) :
    g.dispatchAll es = g.updateAll (.ofSeconds t) (es.flatMap Event.updates) := by
  induction es generalizing g with
  | nil => rfl
  | cons e r ih =>
    have he : g.dispatch e = g.updateAll (.ofSeconds t) e.updates := by rw [dispatch, h e (by simp)]
    rw [dispatchAll_cons, ih (fun x hx => h x (by simp [hx])), List.flatMap_cons, updateAll_append, he]

theorem dispatchAll_parts {e : Event} {es : List Event} (h : Feed.parts? e = some es)
    (hlearn : e.learnedMacs.isSome = true → e.learn = none) (g : Engine) (r : List Event) :
    g.dispatchAll (es ++ r) = g.dispatchAll (e :: r) := by
  have hes : g.dispatchAll es = g.dispatch e := by
    rw [dispatchAll_same_time (Feed.time_parts h), Feed.updates_parts h hlearn]
    rfl
  rw [dispatchAll_append, dispatchAll_cons, hes]

end Engine

/-! ## Ports that are up -/

theorem Update.upState?_apply (config : EngineConfig) (w : Wiring) (now : Instant) {u : Update}
    (hu : ∀ place up, u ≠ .portState place up) (n : Network) (e : Endpoint) :
    (u.apply config w now n).network.upState? e = n.upState? e := by
  cases u with
  | portState place up => exact absurd rfl (hu place up)
  | learn place mac t => exact view_learn blind_up n place e mac t
  | expire place mac => exact view_expire blind_up n place e mac
  | stackState place code =>
    show (Network.stackState w now place code n).upState? e = n.upState? e
    rcases stackState_cases w now place code n with h | ⟨s, h⟩
    · rw [h]
    · rw [h, refreshLinks_eq]
      refine (view_updatePort (f := Port.up) n place e (noteStack · s)).trans ?_
      split
      next he => rw [he]; exact blind_up.portAt n place
      next => rfl
  | connection s dpId connected => exact view_connection n s dpId connected e
  | reload s dpId kind hashes => exact view_reload n s dpId kind hashes e
  | lag | stage | vlanSamples => rfl

namespace Engine

theorem upState?_dispatch {e : Event} (hport : e.portState? = none) (hports : e.portsStatus? = none)
    (g : Engine) (place : Endpoint) :
    (g.dispatch e).1.network.upState? place = g.network.upState? place := by
  refine Outcome.forEach_keeps (P := fun n => n.upState? place = g.network.upState? place)
    (fun u hu n hn => ?_) rfl
  rw [Update.upState?_apply, hn]
  rintro place up rfl
  exact Event.portState_notMem_updates hport hports place up hu

theorem dispatch_portState {e : Event} {s : String} {d : UInt64} {port : UInt32} {up : Bool}
    (h : e.portState? = some (.portState s d port up)) (g : Engine) :
    g.dispatch e = g.update (.ofSeconds e.time) (.portState ⟨s, port⟩ up) := by
  rw [dispatch, Event.updates_portState h]
  rfl

theorem upState?_dispatch_portState {e : Event} {s : String} {d : UInt64} {port : UInt32} {up : Bool}
    (h : e.portState? = some (.portState s d port up)) (g : Engine) (place : Endpoint) :
    (g.dispatch e).1.network.upState? place =
      if place = ⟨s, port⟩ then some up else g.network.upState? place := by
  rw [dispatch_portState h, update_eq]
  exact upState?_portState g.network ⟨s, port⟩ place up

/-- A port that is known to be up or down is no news. -/
theorem dispatch_portState_same {e : Event} {s : String} {d : UInt64} {port : UInt32} {up : Bool}
    (h : e.portState? = some (.portState s d port up)) {g : Engine}
    (hup : g.network.upState? ⟨s, port⟩ = some up) : g.dispatch e = (g, []) := by
  have hquiet : portState g.wiring (.ofSeconds e.time) ⟨s, port⟩ up g.network = .quiet g.network :=
    portState_same (any_up_iff.mpr hup)
  rw [dispatch_portState h, update_eq]
  simp only [Update.apply, hquiet]
  rfl

end Engine
end Fabric
