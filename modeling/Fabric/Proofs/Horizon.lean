import Fabric.Proofs.Courses

/-! Beyond the horizon. Once a horizon is set, no record that comes in with a number up to it is
let through, and neither is anything made of such a record. What the feed had at hand by then is
another matter: the horizon is held against lines only, so an event that is queued, or a port-down
that is held, comes out later whatever its number. -/

namespace Fabric.Feed

variable {f g : Feed} {e : Event} {h : UInt64} {stale : UInt64 → Prop}

/-- An event that has no number, or one past `h`, or one that is excused. -/
def Late (h : UInt64) (stale : UInt64 → Prop) (e : Event) : Prop := ∀ i, e.id = some i → h < i ∨ stale i

/-- All that the feed has at hand is late, and what comes in has to be. -/
structure Past (h : UInt64) (stale : UInt64 → Prop) (f : Feed) : Prop where
  floor : ∃ last, f.floor = some last ∧ h ≤ last
  queued : ∀ e ∈ f.queue, Late h stale e
  held : ∀ x ∈ f.held, Late h stale x.event

theorem lt_of_sequence {last i : UInt64} (hfloor : f.floor = some last) (hid : e.id = some i)
    (hseq : f.sequence e ≠ .covered) : last < i := by
  unfold sequence at hseq
  rw [← floor, hid, hfloor] at hseq
  dsimp only at hseq
  split at hseq
  next => exact absurd rfl hseq
  next hle => exact UInt64.not_le.mp hle

theorem parts_id {es : List Event} (hparts : parts? e = some es) : ∀ x ∈ es, x.id = e.id := by
  intro x hx
  rcases mem_parts hparts hx with ⟨_, _, rfl⟩ | ⟨_, rfl⟩ <;> rfl

namespace Past

/-- A record that is not covered is late, and so is the record after it. -/
theorem pass (hp : Past h stale f) (hseq : f.sequence e ≠ .covered) :
    Late h stale e ∧ Past h stale (f.pass e) := by
  obtain ⟨last, hfloor, hlast⟩ := hp.floor
  have hlate (i : UInt64) (hid : e.id = some i) : h < i :=
    UInt64.lt_of_le_of_lt hlast (lt_of_sequence hfloor hid hseq)
  refine ⟨fun i hid => .inl (hlate i hid), ?_, hp.queued, hp.held⟩
  rw [floor_pass, hfloor]
  cases hid : e.id with
  | none => exact ⟨last, rfl, hlast⟩
  | some i => exact ⟨i, rfl, UInt64.le_of_lt (hlate i hid)⟩

theorem push (hp : Past h stale f) {es : List Event} (hes : ∀ e ∈ es, Late h stale e) :
    Past h stale (f.push es) := by
  refine ⟨hp.floor, fun e he => ?_, hp.held⟩
  rcases List.mem_append.mp (List.mem_of_mem_take he) with he | he
  · exact hes e he
  · exact hp.queued e he

theorem drop (hp : Past h stale f) (id : PortId) : Past h stale (f.drop id) :=
  ⟨hp.floor, hp.queued, fun x hx => hp.held x (List.mem_filter.mp hx).1⟩

theorem dedupe (hp : Past h stale f) (he : Late h stale e) (id : PortId) (up : Bool) :
    Past h stale (f.dedupe id up e).1 ∧ ∀ x ∈ (f.dedupe id up e).2, Late h stale x := by
  refine ⟨⟨hp.floor, hp.queued, hp.held⟩, fun x hx => ?_⟩
  unfold Feed.dedupe at hx
  split at hx
  · cases hx
  · exact Option.mem_some.mp hx ▸ he

/-- What is made of a late event is late. -/
theorem settle (hp : Past h stale f) (he : Late h stale e) :
    Past h stale (f.settle e).1 ∧ ∀ x ∈ (f.settle e).2, Late h stale x := by
  have hsettles := settles f e
  generalize f.settle e = r at *
  cases hsettles with
  | other => exact ⟨hp, fun x hx => Option.mem_some.mp hx ▸ he⟩
  | believed => exact hp.dedupe he _ _
  | passed => exact (hp.drop _).dedupe (e := e.believed) he _ _
  | @held id =>
    refine ⟨⟨hp.floor, hp.queued, fun x hx => ?_⟩, by simp⟩
    rcases List.mem_append.mp hx with hx | hx
    · exact (hp.drop id).held x hx
    · rw [List.mem_singleton.mp hx]
      exact he

/-- What is handed over is late, too. -/
theorem act {ms : List Mark} (hp : Past h stale f) (hs : Act f ms g)
    (hquiet : ∀ m ∈ ms, m.isEnd = false ∧ m.isHorizon = false) :
    Past h stale g ∧ ∀ e ∈ ms.filterMap Mark.delivered?, Late h stale e := by
  cases hs with
  | receive | blank | covered | exhausted => exact ⟨⟨hp.floor, hp.queued, hp.held⟩, by simp [Mark.delivered?]⟩
  | hangUp =>
    obtain ⟨w, hw⟩ := hangUp_eq f
    rw [hw]
    exact ⟨⟨hp.floor, hp.queued, hp.held⟩, List.forall_mem_nil _⟩
  | @pop x r hqueue =>
    have hr : Past h stale { f with queue := r } :=
      ⟨hp.floor, fun y hy => hp.queued y (by simp [hqueue, hy]), hp.held⟩
    have hsettle := hr.settle (hp.queued x (by simp [hqueue]))
    exact ⟨hsettle.1, fun y hy => hsettle.2 y (by simpa [Mark.delivered?] using hy)⟩
  | @gap _ r x _ _ _ _ _ hseq =>
    have hr : Past h stale { f with lines := r } := ⟨hp.floor, hp.queued, hp.held⟩
    have hcovered : sequence { f with lines := r } x ≠ .covered := by
      rw [show sequence { f with lines := r } x = _ from hseq]
      simp
    exact ⟨(hr.pass hcovered).2, by simp [Mark.delivered?]⟩
  | @bulk _ r x es _ _ _ hseq hparts =>
    have hr : Past h stale { f with lines := r } := ⟨hp.floor, hp.queued, hp.held⟩
    obtain ⟨hlate, hpass⟩ := hr.pass (e := x) (by rw [show sequence { f with lines := r } x = _ from hseq]; simp)
    refine ⟨hpass.push fun y hy i hid => hlate i ?_, ?_⟩
    · rw [← parts_id hparts y hy, hid]
    · rw [List.filterMap_cons_none rfl, overflow, delivered_lost]
      exact List.forall_mem_nil _
  | @single _ r x _ _ _ hseq _ =>
    have hr : Past h stale { f with lines := r } := ⟨hp.floor, hp.queued, hp.held⟩
    obtain ⟨hlate, hpass⟩ := hr.pass (e := x) (by rw [show sequence { f with lines := r } x = _ from hseq]; simp)
    have hsettle := hpass.settle hlate
    exact ⟨hsettle.1, fun y hy => hsettle.2 y (by simpa [Mark.delivered?] using hy)⟩
  | horizon | disconnect | attach => simp [Mark.isHorizon, Mark.isEnd] at hquiet

theorem step {c : Clock} {ms : List Mark} (hp : Past h stale f) (hs : Step c f ms g)
    (hquiet : ∀ m ∈ ms, m.isEnd = false ∧ m.isHorizon = false) :
    Past h stale g ∧ ∀ e ∈ ms.filterMap Mark.delivered?, Late h stale e := by
  cases hs with
  | act _ hact => exact hp.act hact hquiet
  | tick => exact ⟨⟨hp.floor, hp.queued, hp.held⟩, by simp⟩
  | @release before after x hheld =>
    have hx : Late h stale x.event := hp.held x (by simp [hheld])
    have hr : Past h stale { f with now := x.due, held := before ++ after } :=
      ⟨hp.floor, hp.queued, fun y hy => hp.held y (by rw [hheld]; simp at hy ⊢; tauto)⟩
    refine ⟨hr.push fun y hy => ?_, fun y hy => ?_⟩
    · rw [List.mem_singleton.mp hy]
      exact hx
    · obtain ⟨a, ha, hy⟩ := List.mem_filterMap.mp hy
      rcases mem_releaseMarks ha with ⟨_, rfl⟩ | ⟨_, rfl⟩ <;> cases hy

theorem steps {c : Clock} {l : Timeline} (hp : Past h stale f) (hs : Steps c f l g)
    (hquiet : ∀ m ∈ l, m.mark.isEnd = false ∧ m.mark.isHorizon = false) :
    Past h stale g ∧ ∀ e ∈ l.delivered, Late h stale e := by
  induction hs with
  | refl => exact ⟨hp, by simp [Timeline.delivered]⟩
  | @snoc _ g' l ms _ hstep ih =>
    obtain ⟨hl, hms⟩ := List.forall_mem_append.mp hquiet
    obtain ⟨hg, hbefore⟩ := ih hl
    obtain ⟨hg', hlast⟩ := hg.step hstep fun a ha => hms ⟨a, g'⟩ (List.mem_map_of_mem ha)
    rw [Timeline.delivered_append, Timeline.delivered_at]
    exact ⟨hg', List.forall_mem_append.mpr ⟨hbefore, hlast⟩⟩

end Past

/-- Take any feed that there can be, and set a horizon. Until another one is set or the session
ends, an event that is handed over has no number, or one past the horizon, or it was in the
queue or held when the horizon was set. -/
theorem deliveries_past_horizon (config : FeedConfig) (before after : List Turn) (h : UInt64)
    (session : ∀ a ∈ after, a.isWithin config = true) :
    ∀ e ∈ (((fresh config).run before).setHorizon h).deliveries after, ∀ i, e.id = some i →
      h < i ∨ (∃ x ∈ ((fresh config).run before).queue, x.id = some i) ∨
        ∃ x ∈ ((fresh config).run before).held, x.event.id = some i := by
  obtain ⟨⟨_, hbefore⟩, -⟩ := exists_course (c := .any) (f := fresh config) nofun before
  obtain ⟨⟨l, hl⟩, -⟩ := exists_course (c := .any) (f := ((fresh config).run before).setHorizon h) nofun after
  have hconfig : (((fresh config).run before).setHorizon h).config = config := hbefore.steps.config
  have hpast : Past h (fun i => (∃ x ∈ ((fresh config).run before).queue, x.id = some i) ∨
      ∃ x ∈ ((fresh config).run before).held, x.event.id = some i)
      (((fresh config).run before).setHorizon h) :=
    ⟨⟨h, rfl, UInt64.le_refl h⟩, fun e he i hid => .inr (.inl ⟨e, he, hid⟩),
      fun x hx i hid => .inr (.inr ⟨x, hx, hid⟩)⟩
  rw [← hl.delivered]
  exact (hpast.steps hl.steps (hl.within (by rw [hconfig]; exact session))).2

section Small

/-- A port goes down, which is held. -/
def downTurns : List Turn :=
  [ .attach,
    .receive (framed [smallRecord "\"event_id\":5,\"PORT_CHANGE\":\x7b\"port_no\":3,\"status\":false\x7d"]),
    .poll ]

/-- A record that the horizon covers, and one that it does not. -/
def laterTurns : List Turn :=
  [ .receive (framed [smallRecord "\"event_id\":9", smallRecord "\"event_id\":10"]),
    .await 6000,
    .await 6000 ]

theorem deliveries_past_horizon_small :
    (∀ a ∈ laterTurns, a.isWithin (.usual "events.sock") = true) ∧
    ∀ e ∈ (((fresh (.usual "events.sock")).run downTurns).setHorizon 9).deliveries laterTurns,
      ∀ i, e.id = some i → 9 < i ∨
        (∃ x ∈ ((fresh (.usual "events.sock")).run downTurns).queue, x.id = some i) ∨
        ∃ x ∈ ((fresh (.usual "events.sock")).run downTurns).held, x.event.id = some i := by
  have session : ∀ a ∈ laterTurns, a.isWithin (.usual "events.sock") = true := by decide +kernel
  exact ⟨session, deliveries_past_horizon (.usual "events.sock") downTurns laterTurns 9 session⟩

/-- What is held when the horizon is set is not held against it: the port-down that waited, number
5, is handed over past horizon 9. -/
theorem held_outlives_horizon :
    ¬ ∀ (config : FeedConfig) (before after : List Turn) (h : UInt64),
      (∀ a ∈ after, a.isWithin config = true) →
      ∀ e ∈ (((fresh config).run before).setHorizon h).deliveries after, ∀ i, e.id = some i → h < i := by
  intro hall
  have session : ∀ a ∈ laterTurns, a.isWithin (.usual "events.sock") = true := by decide +kernel
  have hids : ((((fresh (.usual "events.sock")).run downTurns).setHorizon 9).deliveries laterTurns).filterMap
      (·.id) = [10, 5] := by
    decide +kernel
  have hmem : (5 : UInt64) ∈ [10, 5] := by decide
  rw [← hids] at hmem
  obtain ⟨e, he, hid⟩ := List.mem_filterMap.mp hmem
  exact absurd (hall _ downTurns laterTurns 9 session e he 5 hid) (by decide)

end Small
end Fabric.Feed
