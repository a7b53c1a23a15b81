import Fabric.Proofs.Restore

/-! What holds of a new engine and is kept by live operations holds of every engine that there can
be. Nothing has to be shown of restores, for what they leave behind is where a live run from a new
engine leads (`run_liveRun`). -/

namespace Fabric

open Network

/-- A property of a network under a wiring that nothing breaks. -/
structure Kept (I : Wiring → Network → Prop) : Prop where
  fresh : I .empty .empty
  update : ∀ config w now u n, I w n → I w (Update.apply config w now u n).network
  configure : ∀ w w' now n, I w n → I w' (n.refreshLinks w' now)
  authorize : ∀ w mac a n n', Network.authorize mac a n = .ok n' → I w n → I w n'
  heartbeat : ∀ w window now n, I w n → I w (n.heartbeat w window now).1

def Operation.isRestore : Operation → Bool
  | .restore _ _ => true
  | _ => false

namespace Kept

variable {I : Wiring → Network → Prop}

theorem updateAll (h : Kept I) (g : Engine) (now : Instant) (us : List Update)
    (hg : I g.wiring g.network) :
    I (g.updateAll now us).1.wiring (g.updateAll now us).1.network :=
  Outcome.forEach_keeps (P := I g.wiring) (fun u _ n hn => h.update g.config g.wiring now u n hn) hg

theorem perform_live (h : Kept I) {op : Operation} (hop : op.isRestore = false) (g : Engine)
    (hg : I g.wiring g.network) : I (g.perform op).1.wiring (g.perform op).1.network := by
  cases op with
  | update now u => exact h.updateAll g now [u] hg
  | dispatch e => exact h.updateAll g _ e.updates hg
  | configure now w => exact h.configure g.wiring w now g.network hg
  | authorize mac a =>
    rw [Engine.perform_authorize]
    cases ha : g.network.authorize mac a with
    | error _ => exact hg
    | ok n => exact h.authorize g.wiring mac a g.network n ha hg
  | heartbeat now => exact h.heartbeat g.wiring g.config.window now g.network hg
  | restore => cases hop
  | setReadiness => exact hg

theorem run_live (h : Kept I) {ops : List Operation} (hops : ∀ op ∈ ops, op.isRestore = false)
    (config : EngineConfig) :
    I ((Engine.fresh config).run ops).1.wiring ((Engine.fresh config).run ops).1.network :=
  Engine.run_keeps (P := fun g => I g.wiring g.network)
    (fun op hop g hg => h.perform_live (hops op hop) g hg) h.fresh

theorem isRestore_liveRun (config : EngineConfig) (w : Wiring) (since now : Instant) (s : Snapshot) :
    ∀ op ∈ Engine.liveRun config w since now s, op.isRestore = false := by
  intro op hop
  rw [Engine.liveRun] at hop
  rcases List.mem_append.mp hop with hstart | hend
  · rcases List.mem_cons.mp hstart with rfl | hu
    · rfl
    · obtain ⟨u, _, rfl⟩ := List.mem_map.mp hu
      rfl
  · simp only [Engine.liveEnd, List.mem_cons, List.not_mem_nil, or_false] at hend
    rcases hend with rfl | rfl | rfl <;> rfl

/-- A restore either fails for want of a family, and keeps the network, or starts over. -/
theorem restore (h : Kept I) (config : EngineConfig) (w : Wiring) (now : Instant) (s : Snapshot)
    {n : Network} (hn : I w n) : I w (n.restore config w now s).1.network := by
  by_cases hall : ∀ m ∈ Family.metrics config.vlanMetric, s.contains m = true
  · have hlive := h.run_live (isRestore_liveRun config w now now s) config
    rw [Engine.run_liveRun config w now now s] at hlive
    rw [restore_outcome config w now hall]
    exact hlive
  · rw [restore_missing config w now hall]
    exact hn

theorem perform (h : Kept I) (op : Operation) (g : Engine) (hg : I g.wiring g.network) :
    I (g.perform op).1.wiring (g.perform op).1.network := by
  cases hop : op.isRestore with
  | false => exact h.perform_live hop g hg
  | true =>
    cases op with
    | restore now s => exact h.restore g.config g.wiring now s hg
    | _ => cases hop

theorem run (h : Kept I) (config : EngineConfig) (ops : List Operation) :
    I ((Engine.fresh config).run ops).1.wiring ((Engine.fresh config).run ops).1.network :=
  Engine.run_keeps (P := fun g => I g.wiring g.network) (fun op _ g hg => h.perform op g hg) h.fresh

end Kept
end Fabric
