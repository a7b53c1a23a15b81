import Fabric.Proofs.Kept

/-! The state of a link is kept in the link table and yet never out of date: whatever was done, it
is what the stack states of the two ends and the topology in force make it (`derivedState`). How
the network got there does not show, and neither does an announcement that still waits. -/

namespace Fabric

open Network

/-- The state of a link, from what the ports report of the stack and the topology in force. -/
def derivedState (stack : Endpoint → Option StackState) (t : Topology) (l : Link) : LinkState :=
  if stack l.a = some .bad ∨ stack l.b = some .bad then .broken
  else if t.links.contains l = true ∨ (stack l.a = some .up ∧ stack l.b = some .up) then
    if t.rootHop? l.a.switch = some l.a.port ∨ t.rootHop? l.b.switch = some l.b.port then .active
    else .up
  else .down

namespace Network

theorem linkState_eq (n : Network) (l : Link) :
    n.linkState l = derivedState n.stackState? n.topology.applied l := by
  unfold linkState derivedState leadsToRoot Link.ends
  simp only [List.map_cons, List.map_nil, List.any_cons, List.any_nil, List.all_cons, List.all_nil,
    Bool.or_false, Bool.and_true, Bool.or_eq_true, decide_eq_true_eq]
  by_cases hbad : n.stackState? l.a = some .bad ∨ n.stackState? l.b = some .bad
  · rw [if_pos hbad, if_pos hbad]
  · rw [if_neg hbad, if_neg hbad]
    by_cases hin : n.topology.applied.links.contains l = true ∨
        (n.stackState? l.a = some .up ∧ n.stackState? l.b = some .up)
    · rw [if_pos hin, if_neg (by simpa [Decidable.or_iff_not_imp_left] using hin)]
    · rw [if_neg hin, if_pos (by simpa [Decidable.imp_iff_not_or] using hin)]

/-- Every link that is configured or in force is in the table, and no state in it is old. -/
structure Level (w : Wiring) (n : Network) : Prop where
  wired : ∀ l, w.stackLinks.contains l = true → n.links.contains l = true
  applied : ∀ l, n.topology.applied.links.contains l = true → n.links.contains l = true
  current : ∀ l x, n.links.get? l = some x → x.state = n.linkState l

namespace Level

variable {w : Wiring} {n : Network}

theorem empty : Level .empty .empty where
  wired _ h := by cases h
  applied _ h := by cases h
  current _ _ h := by cases h

/-- A refresh makes up for everything. -/
theorem refreshLinks (w : Wiring) (now : Instant) (n : Network) : Level w (n.refreshLinks w now) where
  wired l h := by simp [contains_refreshLinks, tracks, h]
  applied l h := by
    rw [refreshLinks_topology] at h
    simp [contains_refreshLinks, tracks, h]
  current l x hx := by
    have hstate : (n.refreshLinks w now).linkState l = n.linkState l := by rw [refreshLinks_eq]; rfl
    rw [get?_refreshLinks] at hx
    split at hx
    · cases hx
      rw [hstate, TrackedLink.become_state]
    · cases hx

theorem linkState_congr {m : Network} (happlied : m.topology.applied = n.topology.applied)
    (hstack : ∀ e, m.stackState? e = n.stackState? e) (l : Link) : m.linkState l = n.linkState l := by
  rw [linkState_eq, linkState_eq, happlied, funext hstack]

/-- What touches neither the link table nor what link states are made of needs no refresh. -/
theorem congr {m : Network} (h : Level w n) (hlinks : m.links = n.links)
    (happlied : m.topology.applied = n.topology.applied)
    (hstack : ∀ e, m.stackState? e = n.stackState? e) : Level w m where
  wired l hl := by rw [hlinks]; exact h.wired l hl
  applied l hl := by rw [hlinks]; exact h.applied l (happlied ▸ hl)
  current l x hx := by
    rw [linkState_congr happlied hstack]
    exact h.current l x (hlinks ▸ hx)

theorem stackState (h : Level w n) (now : Instant) (e : Endpoint) (code : Int) :
    Level w (Network.stackState w now e code n) := by
  rcases stackState_cases w now e code n with heq | ⟨s, heq⟩
  · rw [heq]
    exact h
  · rw [heq]
    exact refreshLinks w now _

theorem update (h : Level w n) (config : EngineConfig) (now : Instant) (u : Update) :
    Level w (u.apply config w now n).network := by
  cases hu : u.isStack with
  | false =>
    refine h.congr (Update.links_apply config w now hu n) ?_ (Update.stackState?_apply config w now hu n)
    rw [Update.topology_apply config w now hu n]
  | true =>
    cases u with
    | stackState e code => exact h.stackState now e code
    | stage t => exact h.congr rfl rfl fun _ => rfl
    | _ => cases hu

theorem heartbeat (h : Level w n) (window : Nat) (now : Instant) :
    Level w (n.heartbeat w window now).1 := by
  rcases heartbeat_cases n w window now with heq | heq | ⟨status, heq⟩
  · rw [heq]
    exact h
  · rw [heq]
    exact h.congr rfl rfl fun _ => rfl
  · rw [heq]
    exact refreshLinks w now _

theorem authorize (h : Level w n) {mac : Mac} {a : Authorization} {n' : Network}
    (ha : Network.authorize mac a n = .ok n') : Level w n' := by
  obtain ⟨old, _, rfl⟩ := authorize_ok ha
  exact h.congr rfl rfl fun _ => rfl

theorem kept : Kept Level where
  fresh := empty
  update config _ now u _ h := h.update config now u
  configure _ w now n _ := refreshLinks w now n
  authorize _ _ _ _ _ ha h := h.authorize ha
  heartbeat _ window now _ h := h.heartbeat window now

end Level

/-! ## What waits -/

theorem refreshLinks_withStaged (x : Option Staged) (n : Network) (w : Wiring) (now : Instant) :
    (n.withStaged x).refreshLinks w now = (n.refreshLinks w now).withStaged x := by
  have hlinks : ((n.withStaged x).refreshLinks w now).links = (n.refreshLinks w now).links := by
    apply Table.ext_get?
    intro l
    rw [get?_refreshLinks, get?_refreshLinks]
    rfl
  rw [refreshLinks_eq, hlinks, refreshLinks_eq n]
  rfl

end Network

/-- What waits may come to be something else, but no update looks at it otherwise. -/
theorem Update.apply_withStaged (config : EngineConfig) (w : Wiring) (now : Instant) (u : Update)
    (x : Option Staged) (n : Network) :
    ∃ y, u.apply config w now (n.withStaged x) = (u.apply config w now n).map (withStaged y) := by
  cases hu : u.isStack with
  | false =>
    have h := apply_restack config w now hu n.links { n.topology with staged := x } n
    have hlinks := links_apply config w now hu n
    have htop := topology_apply config w now hu n
    refine ⟨x, h.trans ?_⟩
    simp only [Outcome.map, restack, withStaged, ← hlinks, ← htop]
  | true =>
    cases u with
    | stackState e code =>
      exact ⟨x, congrArg Outcome.quiet
        (stackState_comm rfl (fun _ => rfl) (fun m => refreshLinks_withStaged x m w now) code)⟩
    | stage t => exact ⟨((n.withStaged x).stage now t).topology.staged, rfl⟩
    | _ => cases hu

def Operation.isHeartbeat : Operation → Bool
  | .heartbeat _ => true
  | _ => false

namespace Engine

def withStaged (x : Option Staged) (g : Engine) : Engine :=
  { g with network := g.network.withStaged x }

theorem forEach_withStaged (config : EngineConfig) (w : Wiring) (now : Instant) (us : List Update)
    (x : Option Staged) (n : Network) :
    ∃ y, Outcome.forEach us (Update.apply config w now) (n.withStaged x) =
      (Outcome.forEach us (Update.apply config w now) n).map (Network.withStaged y) := by
  induction us generalizing n x with
  | nil => exact ⟨x, rfl⟩
  | cons u r ih =>
    obtain ⟨y, hy⟩ := Update.apply_withStaged config w now u x n
    obtain ⟨z, hz⟩ := ih y (u.apply config w now n).network
    refine ⟨z, ?_⟩
    rw [Outcome.forEach_cons, Outcome.forEach_cons, hy]
    simp only [Outcome.andThen, Outcome.map, hz]

theorem updateAll_withStaged (now : Instant) (us : List Update) (x : Option Staged) (g : Engine) :
    ∃ y, ((g.withStaged x).updateAll now us).1 = (g.updateAll now us).1.withStaged y := by
  obtain ⟨y, hy⟩ := forEach_withStaged g.config g.wiring now us x g.network
  refine ⟨y, ?_⟩
  show ({ g with network := (Outcome.forEach us (Update.apply g.config g.wiring now)
    (g.network.withStaged x)).network } : Engine) = _
  rw [hy]
  rfl

/-- A restore looks at nothing of what it replaces. -/
theorem restore_withStaged (now : Instant) (s : Snapshot) (x : Option Staged) (g : Engine) :
    ∃ y, ((g.withStaged x).restore now s).1 = (g.restore now s).1.withStaged y := by
  cases h : (Family.metrics g.config.vlanMetric).find? fun m => !s.contains m with
  | some m => exact ⟨x, by simp only [restore, Network.restore, withStaged, h]; rfl⟩
  | none =>
    exact ⟨(g.restore now s).1.network.topology.staged, by
      simp only [restore, Network.restore, withStaged, h]; rfl⟩

theorem perform_withStaged {op : Operation} (hop : op.isHeartbeat = false) (x : Option Staged)
    (g : Engine) : ∃ y, ((g.withStaged x).perform op).1 = (g.perform op).1.withStaged y := by
  cases op with
  | update now u => exact updateAll_withStaged now [u] x g
  | dispatch e => exact updateAll_withStaged _ e.updates x g
  | configure now w =>
    refine ⟨x, ?_⟩
    show ({ g with wiring := w, network := (g.network.withStaged x).refreshLinks w now } : Engine) = _
    rw [refreshLinks_withStaged]
    rfl
  | authorize mac a =>
    refine ⟨x, ?_⟩
    rw [perform_authorize, perform_authorize]
    simp only [Network.authorize, withStaged, Network.withStaged]
    cases g.network.hosts.get? mac <;> rfl
  | heartbeat => cases hop
  | restore now s => exact restore_withStaged now s x g
  | setReadiness r => exact ⟨x, rfl⟩

/-- Until a heartbeat comes nothing shows what waits. -/
theorem run_withStaged {ops : List Operation} (hops : ∀ op ∈ ops, op.isHeartbeat = false)
    (x : Option Staged) (g : Engine) :
    ∃ y, ((g.withStaged x).run ops).1 = (g.run ops).1.withStaged y := by
  induction ops generalizing g x with
  | nil => exact ⟨x, rfl⟩
  | cons op r ih =>
    obtain ⟨y, hy⟩ := perform_withStaged (hops op (by simp)) x g
    obtain ⟨z, hz⟩ := ih (fun o ho => hops o (by simp [ho])) y (g.perform op).1
    refine ⟨z, ?_⟩
    rw [run_cons, run_cons, hy]
    exact hz

theorem links_heartbeat_idle (g : Engine) (now : Instant) (h : (g.heartbeat now).2 = false) :
    (g.heartbeat now).1.network.links = g.network.links := by
  simp only [heartbeat, Network.heartbeat] at h ⊢
  split at h
  · rfl
  next s _ =>
    split at h
    · rw [if_pos ‹_›]
      by_cases hs : g.network.topology.hash? = some s.topology.hash
      · rw [applyTopology_same (by exact hs)]
      · rw [applyTopology_new (by exact hs)] at h
        cases h
    · rw [if_neg ‹_›]

/-- Whatever was done to an engine, every configured link and every link in force is tracked, and
every tracked link is in the state that the stack states of its ends and the topology in force make
it. So two engines that agree on these agree on every link that both track, whatever was done to
either. An announcement that waits changes no link, as long as no heartbeat applies it. -/
theorem links_level_triggered (config : EngineConfig) (ops : List Operation) :
    let g := ((fresh config).run ops).1
    (∀ l, g.wiring.stackLinks.contains l = true ∨ g.network.topology.applied.links.contains l = true →
      ∃ x, g.network.links.get? l = some x) ∧
    (∀ l x, g.network.links.get? l = some x →
      x.state = derivedState g.network.stackState? g.network.topology.applied l) ∧
    (∀ config' ops',
      let g' := ((fresh config').run ops').1
      (∀ e, g.network.stackState? e = g'.network.stackState? e) →
      g.network.topology.applied = g'.network.topology.applied →
      ∀ l x y, g.network.links.get? l = some x → g'.network.links.get? l = some y → x.state = y.state) ∧
    (∀ now t after, (∀ op ∈ after, Operation.isHeartbeat op = false) →
      ((g.update now (.stage t)).1.run after).1.network.links = (g.run after).1.network.links) ∧
    (∀ now, (g.heartbeat now).2 = false → (g.heartbeat now).1.network.links = g.network.links) := by
  have level (config : EngineConfig) (ops : List Operation) :
      Level ((fresh config).run ops).1.wiring ((fresh config).run ops).1.network :=
    Level.kept.run config ops
  have current (config : EngineConfig) (ops : List Operation) (l : Link) (x : TrackedLink)
      (hx : ((fresh config).run ops).1.network.links.get? l = some x) :
      x.state = derivedState ((fresh config).run ops).1.network.stackState?
        ((fresh config).run ops).1.network.topology.applied l := by
    rw [(level config ops).current l x hx, linkState_eq]
  refine ⟨fun l hl => ?_, current config ops, ?_, ?_, fun now => links_heartbeat_idle _ now⟩
  · exact Table.contains_iff.mp (hl.elim ((level config ops).wired l) ((level config ops).applied l))
  · intro config' ops' g' hstack happlied l x y hx hy
    rw [current config ops l x hx, current config' ops' l y hy, funext hstack, happlied]
  · intro now t after hafter
    obtain ⟨y, hy⟩ := run_withStaged hafter
      (((fresh config).run ops).1.network.stage now t).topology.staged ((fresh config).run ops).1
    exact congrArg (·.network.links) hy

end Engine
end Fabric
