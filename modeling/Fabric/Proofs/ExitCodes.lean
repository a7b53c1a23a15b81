import Fabric.Cli.Run
import Fabric.Proofs.Refusal

/-! How a query ends. A command that fails because something is not there has an exit code of its own, but
a query never ends with it: a restored engine turns every fault into a summary before it answers, and of a
summary only the text is left by the time that the exit code is chosen. So whoever asks about an unknown
switch or host gets the code that stands for all else (`respond_query`). -/

namespace Fabric.Cli

variable {α : Type} {g : Engine} {q : Query} {m : Monitor} {o : Outside Id} {args : List String}

/-- What a query is about, if that is not there. -/
def Query.missing? (g : Engine) : Query → Option Fault
  | switches (some name) =>
    if g.network.switches.contains name then none else some (.unknownSwitch name)
  | switchPath name _ =>
    if g.network.switches.contains name || g.wiring.switches.contains name then none
    else some (.unknownSwitch name)
  | hostPath src _ _ =>
    if g.network.hosts.contains (.ofText src) then none else some (.unknownHost (Mac.ofText src).text)
  | _ => none

/-- The query that a command line asks, and the monitor once it has been restored to answer it. -/
def asked? (o : Outside Id) (args : List String) : Option (Query × Monitor) :=
  match invocation args (o.env.get? "FORCH_CONFIG") with
  | .error _ => none
  | .ok i =>
    match i.command, (Session.load o.look o.above o.env i).run with
    | .query q, .ok s =>
      match (s.start o.network.now).restore o.network with
      | (m, .ok _) => some (q, m)
      | (_, .error _) => none
    | _, _ => none

/-! ## Answers -/

/-- If it fails, then for want of an answer. -/
def Unanswerable (x : Except Failure α) : Prop := ∀ f, x = .error f → ∃ detail, f = .unanswered detail

theorem unanswerable_ok (a : α) : Unanswerable (.ok a) := fun _ h => nomatch h

theorem unanswerable_answered (a : Answer α) : Unanswerable (answered a) := by
  intro f h
  cases a with
  | ok => cases h
  | error s =>
    cases h
    exact ⟨s.detail, rfl⟩

theorem Unanswerable.bind {β : Type} {x : Except Failure α} {k : α → Except Failure β}
    (hx : Unanswerable x) (hk : ∀ a, Unanswerable (k a)) : Unanswerable (x >>= k) := by
  cases x with
  | ok a => exact hk a
  | error e =>
    intro f h
    cases h
    exact hx e rfl

theorem unanswerable_answer (g : Engine) (horizon : UInt64) (q : Query) :
    Unanswerable (answer g horizon q) := by
  cases q with
  | status => exact unanswerable_ok _
  | restore =>
    exact .bind (unanswerable_answered _) fun _ => .bind (unanswerable_answered _) fun _ =>
      .bind (unanswerable_answered _) fun _ => unanswerable_ok _
  | _ => exact .bind (unanswerable_answered _) fun _ => unanswerable_ok _

theorem answered_fault {f : Fault} {question : Network → Except Fault α} (ready : g.readiness = .ready)
    (h : question g.network = .error f) : answered (g.ask question) = .error (.unanswered f.message) := by
  rw [Engine.ask, ready, h]
  rfl

theorem Query.missing?_eq_some {f : Fault} (h : q.missing? g = some f) :
    (∃ name, q = .switches (some name) ∧ g.network.switches.get? name = none ∧ f = .unknownSwitch name) ∨
    (∃ name inPort, q = .switchPath name inPort ∧ f = .unknownSwitch name ∧
      (g.network.switches.contains name || g.wiring.switches.contains name) = false) ∨
    ∃ src dst toEgress, q = .hostPath src dst toEgress ∧ g.network.hosts.get? (.ofText src) = none ∧
      f = .unknownHost (Mac.ofText src).text := by
  cases q with
  | switches name =>
    cases name with
    | none => cases h
    | some name =>
      obtain ⟨hno, hf⟩ := Option.ite_none_left_eq_some.mp h
      exact .inl ⟨name, rfl, by simpa [Table.contains] using hno, (Option.some.inj hf).symm⟩
  | switchPath name inPort =>
    obtain ⟨hno, hf⟩ := Option.ite_none_left_eq_some.mp h
    exact .inr (.inl ⟨name, inPort, rfl, (Option.some.inj hf).symm, by simpa using hno⟩)
  | hostPath src dst toEgress =>
    obtain ⟨hno, hf⟩ := Option.ite_none_left_eq_some.mp h
    exact .inr (.inr ⟨src, dst, toEgress, rfl, by simpa [Table.contains] using hno, (Option.some.inj hf).symm⟩)
  | _ => cases h

/-- The network knows what is not there for what it is, the command only that there is no answer. -/
theorem answer_missing {f : Fault} (ready : g.readiness = .ready) (h : q.missing? g = some f)
    (horizon : UInt64) : answer g horizon q = .error (.unanswered f.message) := by
  rcases Query.missing?_eq_some h with ⟨name, rfl, hno, rfl⟩ | ⟨name, inPort, rfl, rfl, hno⟩ |
    ⟨src, dst, toEgress, rfl, hno, rfl⟩
  · have hview : g.network.switchesView g.wiring (some name) = .error (.unknownSwitch name) := by
      simp only [Network.switchesView, hno]
    rw [answer, Engine.switches, answered_fault ready hview]
    rfl
  · rw [answer, Engine.egressRoute, answered_fault ready (if_neg (by simp [hno]))]
    rfl
  · have hroute : g.network.hostRoute g.wiring (.ofText src) (if toEgress then none else dst.map .ofText) =
        .error (.unknownHost (Mac.ofText src).text) := by
      simp only [Network.hostRoute, Network.located, hno]
      rfl
    rw [answer, Engine.hostRoute, answered_fault ready hroute]
    rfl

/-! ## Exit codes -/

theorem exitCode_missing {f : Fault} (h : q.missing? g = some f) : (Failure.other f).exitCode = 4 := by
  rcases Query.missing?_eq_some h with ⟨_, -, -, rfl⟩ | ⟨_, _, -, rfl, -⟩ | ⟨_, _, _, -, -, rfl⟩
  all_goals rfl

theorem respond_asked (h : asked? o args = some (q, m)) :
    m.engine.readiness = .ready ∧ ∃ i horizon,
      (respond o args : Response) = .ofOutcome i ⟨(answer m.engine horizon q).map some, m.requests⟩ := by
  unfold asked? at h
  split at h
  next => cases h
  next i hi =>
    split at h
    next q' s hq hs =>
      have hready := Monitor.restore_readiness (s.start o.network.now) o.network
      split at h
      next m' horizon hrestored =>
        cases h
        rw [hrestored] at hready
        refine ⟨hready, i, horizon, ?_⟩
        have hload : (respond o args : Response) =
            match (Session.load o.look o.above o.env i).run with
            | .error f => .failed f 0
            | .ok s => .ofOutcome i (perform o.network o.site o.received s i.command) := by
          simp only [respond, hi]
          rfl
        rw [hload, hs, hq]
        simp only [perform, query, hrestored]
      next => cases h
    next => cases h

/-- However the query of a command line turns out once its session is restored: it is answered, which is
exit code 0, or else unanswered, which is 1. When it is about a switch or host that is not there, it is
unanswered, although the fault that the engine found would have had the code 4. -/
theorem respond_query (h : asked? o args = some (q, m)) :
    let r : Response := respond o args
    (∀ f, q.missing? m.engine = some f →
      r = .failed (.unanswered f.message) m.requests ∧ r.exitCode = 1 ∧ (Failure.other f).exitCode = 4) ∧
    ((r.failure = none ∧ r.exitCode = 0) ∨
      ∃ detail, r.failure = some (.unanswered detail) ∧ r.exitCode = 1) := by
  obtain ⟨ready, i, horizon, hrespond⟩ := respond_asked h
  intro r
  have hr : r = .ofOutcome i ⟨(answer m.engine horizon q).map some, m.requests⟩ := hrespond
  refine ⟨fun f hf => ?_, ?_⟩
  · rw [answer_missing ready hf] at hr
    exact ⟨hr, by rw [hr]; rfl, exitCode_missing hf⟩
  · cases hanswer : answer m.engine horizon q with
    | ok page =>
      rw [hanswer] at hr
      exact .inl ⟨by rw [hr]; rfl, by rw [hr]; rfl⟩
    | error f =>
      obtain ⟨detail, rfl⟩ := unanswerable_answer m.engine horizon q f hanswer
      rw [hanswer] at hr
      exact .inr ⟨detail, by rw [hr]; rfl, by rw [hr]; rfl⟩

section Small

/-- One switch, and no file at all. -/
def bareWorld : Outside Id :=
  let metrics := "dp_status\x7bdp_name=\"sw1\"\x7d 1\nport_status 1\nport_stack_state 1\nport_lacp_state 1\n" ++
    "port_lacp_role 1\nlearned_l2_port 1\nfaucet_config_reload_cold 1\nfaucet_config_reload_warm 1\n" ++
    "dp_root_hop_port 1\nfaucet_stack_root_dpid 1\nvlan_packet_count 1\nfaucet_event_id 1\n"
  ⟨fun _ => .nothing, 0, [], ⟨fun _ => .response 200 metrics, 0⟩, fun _ => .nothing, []⟩

theorem asked_bareWorld :
    ∃ m, asked? bareWorld ["path", "switch", "nope"] = some (.switchPath "nope" none, m) ∧
    m.engine.network.switches.contains "sw1" = true ∧
    (Query.switchPath "nope" none).missing? m.engine = some (.unknownSwitch "nope") := by
  have hasked : ((asked? bareWorld ["path", "switch", "nope"]).any fun x =>
      x.1 = .switchPath "nope" none ∧ x.2.engine.network.switches.contains "sw1" = true ∧
        x.1.missing? x.2.engine = some (.unknownSwitch "nope")) = true := by decide +kernel
  obtain ⟨⟨q, m⟩, h, hmissing⟩ := (Option.any_eq_true _ _).mp hasked
  obtain ⟨rfl, hsw1, hnope⟩ := of_decide_eq_true hmissing
  exact ⟨m, h, hsw1, hnope⟩

theorem respond_query_small :
    let r : Response := respond bareWorld ["path", "switch", "nope"]
    ∃ m, asked? bareWorld ["path", "switch", "nope"] = some (.switchPath "nope" none, m) ∧
      r = .failed (.unanswered "Switch not found: nope") m.requests ∧ r.exitCode = 1 := by
  obtain ⟨m, h, -, hmissing⟩ := asked_bareWorld
  obtain ⟨hr, hcode, -⟩ := (respond_query h).1 _ hmissing
  exact ⟨m, h, hr, hcode⟩

/-- A question about a switch that is neither tracked nor configured does not end with the code for what is
not there. -/
theorem missing_unclassified :
    ∃ m, asked? bareWorld ["path", "switch", "nope"] = some (.switchPath "nope" none, m) ∧
      m.engine.network.switches.contains "nope" = false ∧ m.engine.wiring.switches.contains "nope" = false ∧
      (respond bareWorld ["path", "switch", "nope"] : Response).exitCode ≠ 4 := by
  obtain ⟨m, h, -, hmissing⟩ := asked_bareWorld
  obtain ⟨ready, i, horizon, hr⟩ := respond_asked h
  have hunknown := (Option.ite_none_left_eq_some.mp hmissing).1
  rw [Bool.not_eq_true, Bool.or_eq_false_iff] at hunknown
  rw [answer_missing ready hmissing] at hr
  refine ⟨m, h, hunknown.1, hunknown.2, ?_⟩
  rw [hr]
  show 1 ≠ 4
  decide

end Small

end Fabric.Cli
