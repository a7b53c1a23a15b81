import Fabric.Engine.Query
import Fabric.Monitor
import Fabric.Proofs.Restore

/-! An engine that could not be restored answers nothing. A restore fails for want of a family, before
it touches anything, or for want of a usable event number, when the network is rebuilt already
(`RestoreEnds`); either way every question is refused with the reason, whatever the network holds, until
somebody says otherwise (`Refuses`). A monitor adds failures to get a snapshot at all (`Attempt`), and
after any number of attempts its engine is ready exactly if the last one succeeded. -/

namespace Fabric

open Network

/-- The event numbers of a snapshot that can be used. -/
def Snapshot.eventNumbers (s : Snapshot) : List UInt64 :=
  (s.samples "faucet_event_id").filterMap (count? ·.value)

/-- What a failed restore makes of every answer. -/
def refusal (e : Fault) : Summary := ⟨.broken, "State not restored: " ++ e.message, ⟨0, none⟩⟩

/-- A restore leaves it to others to make an engine ready. -/
def Operation.keepsReadiness : Operation → Bool
  | restore _ _ | setReadiness _ => false
  | _ => true

/-! ## How a restore ends -/

/-- How a restore from a snapshot ends: with the first missing family, for want of a usable event
number, or with the greatest of these numbers. -/
inductive RestoreEnds (vlanMetric : String) (s : Snapshot) : Except Fault UInt64 → Prop where
  | incomplete {before after : List String} {metric : String} :
      Family.metrics vlanMetric = before ++ metric :: after → (∀ m ∈ before, s.contains m = true) →
      s.contains metric = false → RestoreEnds vlanMetric s (.error (.missingMetric metric))
  | unnumbered : (∀ m ∈ Family.metrics vlanMetric, s.contains m = true) → s.eventNumbers = [] →
      RestoreEnds vlanMetric s (.error (.badSample "faucet_event_id" "no samples"))
  | done {id : UInt64} : (∀ m ∈ Family.metrics vlanMetric, s.contains m = true) →
      id ∈ s.eventNumbers → (∀ i ∈ s.eventNumbers, i ≤ id) → RestoreEnds vlanMetric s (.ok id)

namespace Network

theorem max_eq (a b : UInt64) : (max a b = b ∧ a ≤ b) ∨ (max a b = a ∧ b ≤ a) := by
  by_cases h : a ≤ b
  · exact .inl ⟨if_pos h, h⟩
  · exact .inr ⟨if_neg h, UInt64.le_of_lt (UInt64.not_le.mp h)⟩

/-- What is gathered of the event numbers is the greatest of them. -/
theorem foldl_laterEvent {ids : List UInt64} {m : Option UInt64} {id : UInt64}
    (h : ids.foldl Rebuild.laterEvent m = some id) :
    (id ∈ ids ∨ m = some id) ∧ (∀ i ∈ ids, i ≤ id) ∧ ∀ i ∈ m, i ≤ id := by
  induction ids generalizing m with
  | nil =>
    obtain rfl : m = some id := h
    exact ⟨.inr rfl, by simp, by rintro i ⟨⟩; exact UInt64.le_refl id⟩
  | cons x r ih =>
    obtain ⟨hmem, hrest, hmax⟩ := ih h
    have hle : max x (m.getD x) ≤ id := hmax _ rfl
    have hx : x ≤ id ∧ m.getD x ≤ id := by
      rcases max_eq x (m.getD x) with ⟨hm, h⟩ | ⟨hm, h⟩ <;> rw [hm] at hle
      · exact ⟨UInt64.le_trans h hle, hle⟩
      · exact ⟨hle, UInt64.le_trans h hle⟩
    refine ⟨?_, fun i hi => ?_, by rintro i ⟨⟩; exact hx.2⟩
    · rcases hmem with hmem | hlast
      · exact .inl (List.mem_cons_of_mem x hmem)
      · have hlast : max x (m.getD x) = id := Option.some.inj hlast
        cases m with
        | none =>
          have hself : x = id := by rcases max_eq x x with ⟨hm, -⟩ | ⟨hm, -⟩ <;> exact hm.symm.trans hlast
          exact .inl (by simp [hself])
        | some y => rcases max_eq x y with ⟨hm, -⟩ | ⟨hm, -⟩ <;> simp_all
    · rcases List.mem_cons.mp hi with rfl | hi
      · exact hx.1
      · exact hrest i hi

theorem restore_result (config : EngineConfig) (w : Wiring) (now : Instant) (s : Snapshot) (n : Network) :
    RestoreEnds config.vlanMetric s (n.restore config w now s).2 := by
  unfold restore
  cases hfind : (Family.metrics config.vlanMetric).find? fun m => !s.contains m with
  | some metric =>
    obtain ⟨hmetric, before, after, hsplit, hbefore⟩ := List.find?_eq_some_iff_append.mp hfind
    exact .incomplete hsplit (by simpa using hbefore) (by simpa using hmetric)
  | none =>
    have hall : ∀ m ∈ Family.metrics config.vlanMetric, s.contains m = true := by
      simpa using List.find?_eq_none.mp hfind
    dsimp only
    rw [Rebuild.rebuild_gathered]
    dsimp only
    cases hlast : ((s.samples "faucet_event_id").filterMap (count? ·.value)).foldl Rebuild.laterEvent none with
    | some id =>
      obtain ⟨hmem, hmax, -⟩ := foldl_laterEvent hlast
      exact .done hall (hmem.resolve_right (by simp)) hmax
    | none =>
      refine .unnumbered hall (Classical.byContradiction fun hids => ?_)
      have hsome := Rebuild.foldl_laterEvent_isSome hids none
      rw [Snapshot.eventNumbers, hlast] at hsome
      cases hsome

end Network

namespace Engine

/-! ## Refusing -/

/-- Every question gets the same answer, whatever it asks for. -/
structure Refuses (g : Engine) (s : Summary) : Prop where
  switchSummary : g.switchSummary = s
  dataplaneSummary : g.dataplaneSummary = s
  hostSummary : g.hostSummary = s
  switches : ∀ name, g.switches name = .error s
  dataplane : g.dataplane = .error s
  egressRoute : ∀ switch inPort, g.egressRoute switch inPort = .error s
  hostRoute : ∀ src dst toEgress, g.hostRoute src dst toEgress = .error s
  hosts : g.hosts = .error s

theorem Refuses.of_unready {g : Engine} {detail : String} (h : g.readiness = .unready detail) :
    g.Refuses (.broken detail) := by
  have hask {α : Type} (question : Network → Except Fault α) :
      g.ask question = .error (.broken detail) := by simp only [ask, h]
  have hsummarize (summary : Network → Summary) : g.summarize summary = .broken detail := by
    simp only [summarize, hask]
  exact ⟨hsummarize _, hsummarize _, hsummarize _, fun _ => hask _, hask _, fun _ _ => hask _,
    fun _ _ _ => hask _, hask _⟩

theorem perform_readiness {op : Operation} (h : op.keepsReadiness = true) (g : Engine) :
    (g.perform op).1.readiness = g.readiness := by
  cases op with
  | authorize mac a => rw [perform_authorize]
  | restore | setReadiness => cases h
  | _ => rfl

theorem run_readiness {ops : List Operation} (h : ∀ op ∈ ops, op.keepsReadiness = true) (g : Engine) :
    (g.run ops).1.readiness = g.readiness :=
  run_keeps (P := fun x => x.readiness = g.readiness)
    (fun op hop x hx => (perform_readiness (h op hop) x).trans hx) rfl

theorem restore_unready {g : Engine} {now : Instant} {s : Snapshot} {e : Fault}
    (h : (g.restore now s).2.2 = .error e) : (g.restore now s).1.readiness = .lost (some e.message) := by
  have hresult : (g.network.restore g.config g.wiring now s).2 = .error e := h
  simp only [restore, hresult]

/-- For want of a family nothing is touched. -/
theorem restore_incomplete {g : Engine} {now : Instant} {s : Snapshot} {metric : String}
    (h : (g.restore now s).2.2 = .error (.missingMetric metric)) :
    (g.restore now s).1 = g.setReadiness (.lost (some (Fault.missingMetric metric).message)) ∧
      (g.restore now s).2.1 = [] := by
  have hresult : (g.network.restore g.config g.wiring now s).2 = .error (.missingMetric metric) := h
  have hrestored := Network.restore_result g.config g.wiring now s g.network
  rw [hresult] at hrestored
  cases hrestored with
  | incomplete hsplit hbefore hmissing =>
    have hall : ¬ ∀ m ∈ Family.metrics g.config.vlanMetric, s.contains m = true := by
      intro hall
      rw [hall metric (by simp [hsplit])] at hmissing
      cases hmissing
    have houtcome := restore_missing g.config g.wiring now hall g.network
    simp only [restore, hresult, houtcome]
    exact ⟨rfl, rfl⟩

end Engine

/-! ## Attempts -/

namespace Monitor

/-- How an attempt of a monitor at a restore ends. -/
inductive Attempt (m : Monitor) (s : Surroundings) : Except Fault UInt64 → Prop where
  /-- There is no snapshot to be had. -/
  | unfetched {e : Fault} :
      (Scrape.retry s.tape m.requests m.engine.neededMetrics m.config.scrapeRetries).result = .error e →
      Attempt m s (.error e)
  | fetched {snapshot : Snapshot} {result : Except Fault UInt64} :
      (Scrape.retry s.tape m.requests m.engine.neededMetrics m.config.scrapeRetries).result = .ok snapshot →
      RestoreEnds m.engine.config.vlanMetric snapshot result → Attempt m s result

/-- One attempt after another, each with what is done to the engine before it. -/
def attempts (m : Monitor) : List (List Operation × Surroundings) → Monitor × List (Except Fault UInt64)
  | [] => (m, [])
  | (meanwhile, s) :: r =>
    let (m, result) := (m.withEngine (m.engine.run meanwhile)).restore s
    let (m, results) := m.attempts r
    (m, result :: results)

theorem restore_attempt (m : Monitor) (s : Surroundings) : m.Attempt s (m.restore s).2 := by
  unfold restore
  dsimp only
  split
  next e hfetch => exact .unfetched hfetch
  next snapshot hfetch =>
    have hrestored : RestoreEnds m.engine.config.vlanMetric snapshot (m.engine.restore s.now snapshot).2.2 :=
      Network.restore_result m.engine.config m.engine.wiring s.now snapshot m.engine.network
    split
    next e heq => exact .fetched hfetch (heq ▸ hrestored)
    next id heq => exact .fetched hfetch (heq ▸ hrestored)

theorem restore_readiness (m : Monitor) (s : Surroundings) :
    (m.restore s).1.engine.readiness =
      match (m.restore s).2 with
      | .ok _ => .ready
      | .error e => .lost (some e.message) := by
  unfold restore
  dsimp only
  split
  · rfl
  next snapshot _ =>
    split
    next e heq => exact Engine.restore_unready heq
    next => rfl

theorem length_attempts (m : Monitor) (tries : List (List Operation × Surroundings)) :
    (m.attempts tries).2.length = tries.length := by
  induction tries generalizing m with
  | nil => rfl
  | cons a r ih => rw [attempts, List.length_cons, List.length_cons, ih]

/-- The last attempt decides. -/
theorem attempts_readiness (m : Monitor) (tries : List (List Operation × Surroundings)) :
    ∀ result ∈ (m.attempts tries).2.getLast?, (m.attempts tries).1.engine.readiness =
      match result with
      | .ok _ => .ready
      | .error e => .lost (some e.message) := by
  induction tries generalizing m with
  | nil => simp [attempts]
  | cons a r ih =>
    intro result hlast
    unfold attempts at hlast ⊢
    dsimp only at hlast ⊢
    cases r with
    | nil =>
      obtain rfl := Option.some.inj hlast
      exact restore_readiness _ a.2
    | cons b r =>
      refine ih _ result ?_
      have hlength := length_attempts ((m.withEngine (m.engine.run a.1)).restore a.2).1 (b :: r)
      rwa [List.getLast?_cons_of_ne_nil (by rintro hnil; simp [hnil] at hlength)] at hlast

end Monitor

namespace Engine

/-- Whatever was done to an engine and whatever a snapshot holds: the restore ends with the first
family that is missing, for want of a usable event number, or with the greatest of these numbers.
After a failure the engine is not ready and refuses every question with the reason, and goes on to do so
whatever is made of the network; for want of a family nothing else has changed and nobody is told
anything. A monitor that attempts to restore its engine any number of times, whatever is done to the
engine in between, has it ready in the end exactly if the last attempt succeeded. -/
theorem restore_refuses (config : EngineConfig) (ops : List Operation) (now : Instant) (s : Snapshot) :
    let g := ((fresh config).run ops).1
    let r := g.restore now s
    RestoreEnds config.vlanMetric s r.2.2 ∧
    (∀ e, r.2.2 = .error e → ∀ after, (∀ op ∈ after, Operation.keepsReadiness op = true) →
      (r.1.run after).1.isReady = false ∧ (r.1.run after).1.Refuses (refusal e)) ∧
    (∀ metric, r.2.2 = .error (.missingMetric metric) →
      r.1 = g.setReadiness (.lost (some (Fault.missingMetric metric).message)) ∧ r.2.1 = []) ∧
    (∀ (m : Monitor) (x : Surroundings), m.Attempt x (m.restore x).2) ∧
    ∀ (m : Monitor) (tries : List (List Operation × Surroundings)),
      let done := m.attempts tries
      done.2.length = tries.length ∧
      ∀ result ∈ done.2.getLast?, (done.1.engine.isReady = true ↔ ∃ id, result = .ok id) ∧
        ∀ e, result = .error e → done.1.engine.Refuses (refusal e) := by
  intro g r
  have hconfig : g.config = config := run_config (fresh config) ops
  refine ⟨?_, fun e hfailed after hafter => ?_, fun metric => restore_incomplete,
    fun m x => m.restore_attempt x, fun m tries => ⟨m.length_attempts tries, fun result hlast => ?_⟩⟩
  · rw [← hconfig]
    exact Network.restore_result g.config g.wiring now s g.network
  · have hlost : (r.1.run after).1.readiness = .lost (some e.message) :=
      (run_readiness hafter r.1).trans (restore_unready hfailed)
    exact ⟨by simp [isReady, hlost, Readiness.lost], .of_unready hlost⟩
  · have hreadiness := m.attempts_readiness tries result hlast
    cases result with
    | ok id =>
      refine ⟨iff_of_true ?_ ⟨id, rfl⟩, fun e he => by cases he⟩
      simpa [isReady] using hreadiness
    | error e =>
      refine ⟨iff_of_false ?_ (by simp), ?_⟩
      · simp [isReady, hreadiness, Readiness.lost]
      · rintro x ⟨⟩
        exact .of_unready hreadiness

set_option maxRecDepth 4000 in
/-- Every family is there, but no number of an event is whole: the network is rebuilt all the same. -/
example :
    let r := smallEngine.restore 5 (smallSnapshot.insert "faucet_event_id" [labelled [] 1.5])
    r.2.2.isOk = false ∧ r.1.isReady = false ∧
      r.1.network.switches.keys = ["sw1", "sw2"] := by
  decide +kernel

end Engine
end Fabric
