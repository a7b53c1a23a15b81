import Fabric.Proofs.Detached
import Fabric.Proofs.FanOut

/-! An ingestor that no task disturbs. When tasks step in only while nobody asks, and each puts its event as
soon as it wakes up, the ingestor is at every turn the feed that holds what its live tasks hold (`Mirrors`),
and it tells the same. So whatever a feed does in a run, there are moves by which the ingestor does it
(`exists_moves`), on a clock on which nothing else happens while something held is due. -/

namespace Fabric.Ingestor

open Feed

variable {s t : Ingestor} {f g : Feed} {e : Event} {id : PortId}

/-- The ingestor is the feed, and no task is about to put anything. -/
structure Mirrors (s : Ingestor) (f : Feed) : Prop where
  tethered : s.Tethered
  feed : { s.core with held := s.live } = f
  awake : s.awake = []

/-- By some moves, which take from outside what is in `ins` and tell `ds`. -/
def Plays (s : Ingestor) (ins : List Mark) (ds : List Delivery) (t : Ingestor) : Prop :=
  ∃ moves, s.run moves = t ∧ (s.marks moves).filterMap Mark.input? = ins ∧ (s.marks moves).flatMap Mark.told = ds

namespace Plays

variable {u : Ingestor} {ins ins' : List Mark} {ds ds' : List Delivery}

theorem refl (s : Ingestor) : Plays s [] [] s := ⟨[], rfl, rfl, rfl⟩

theorem trans (h : Plays s ins ds t) (h' : Plays t ins' ds' u) : Plays s (ins ++ ins') (ds ++ ds') u := by
  obtain ⟨as, rfl, rfl, rfl⟩ := h
  obtain ⟨bs, rfl, rfl, rfl⟩ := h'
  refine ⟨as ++ bs, run_append s as bs, ?_, ?_⟩
  · rw [marks_append, List.filterMap_append]
  · rw [marks_append, List.flatMap_append]

theorem one (a : Move) : Plays s ((s.step a).2.filterMap Mark.input?) ((s.step a).2.flatMap Mark.told) (s.step a).1 :=
  ⟨[a], rfl, by rw [marks, marks, List.append_nil], by rw [marks, marks, List.append_nil]⟩

/-- One move, if that is what it does. -/
theorem move {a : Move} {ms : List Mark} (h : s.step a = (t, ms)) :
    Plays s (ms.filterMap Mark.input?) (ms.flatMap Mark.told) t := by
  have hone := one (s := s) a
  rwa [h] at hone

end Plays

/-! ## What has nothing to do with the queue and the wire -/

namespace Mirrors

theorem withCore (h : s.Mirrors f) {core : Feed} (hcore : { core with held := s.live } = g) :
    (s.withCore core).Mirrors g :=
  ⟨h.tethered.congr rfl rfl rfl rfl, hcore, h.awake⟩

theorem withReader (h : s.Mirrors f) (reader : Reader) : (s.withReader reader).Mirrors f :=
  ⟨h.tethered.congr rfl rfl rfl rfl, h.feed, h.awake⟩

theorem cancel (h : s.Mirrors f) (id : PortId) : (s.cancel id).Mirrors (f.drop id) := by
  obtain ⟨ht, rfl, hawake⟩ := h
  have hsame : (s.cancel id).core = s.core ∧ (s.cancel id).awake = s.awake := by
    unfold Ingestor.cancel
    split <;> exact ⟨rfl, rfl⟩
  refine ⟨ht.cancel id, ?_, hsame.2.trans hawake⟩
  rw [hsame.1, live_cancel ht]
  rfl

theorem debounce (h : s.Mirrors f) (id : PortId) (up : Bool) (e : Event) :
    (s.debounce id up e).1.Mirrors (f.debounce id up e).1 ∧ (s.debounce id up e).2 = (f.debounce id up e).2 := by
  have hcancel := h.cancel id
  have hnone : ∀ x ∈ (s.cancel id).live, x.id ≠ id := by
    rw [live_cancel h.tethered]
    exact fun x hx => of_decide_eq_true (List.mem_filter.mp hx).2
  unfold Ingestor.debounce Feed.debounce
  dsimp only
  generalize s.cancel id = s' at *
  obtain ⟨ht, hfeed, hawake⟩ := hcancel
  rw [← hfeed]
  split
  · exact ⟨⟨ht.congr rfl rfl rfl rfl, rfl, hawake⟩, rfl⟩
  · refine ⟨⟨ht.start hnone _, ?_, hawake⟩, rfl⟩
    rw [live_start ht]
    rfl

theorem settle (h : s.Mirrors f) (e : Event) :
    (s.settle e).1.Mirrors (f.settle e).1 ∧ (s.settle e).2 = (f.settle e).2 := by
  unfold Ingestor.settle Feed.settle
  cases e.portState? with
  | none => exact ⟨h, rfl⟩
  | some r =>
    cases r with
    | portState _ d p up =>
      dsimp only
      split
      · obtain ⟨ht, rfl, hawake⟩ := h
        exact ⟨⟨ht.congr rfl rfl rfl rfl, rfl, hawake⟩, rfl⟩
      · exact h.debounce ⟨d, p⟩ up e
    | _ => exact ⟨h, rfl⟩

end Mirrors

/-! ## Asking -/

/-- What is in hand is settled, and handed over if it is anything. -/
theorem work_plays (h : s.Mirrors f) (hreader : s.reader = .working e) (hparts : parts? e = none) :
    ∃ t, Plays s [] ((f.settle e).2.toList.map .event) t ∧ t.Mirrors (f.settle e).1 ∧
      t.reader = if (f.settle e).2.isSome then .resting else .looking := by
  obtain ⟨hmirrors, hout⟩ := h.settle e
  have hwork : s.step .work = ((s.settle e).1.withReader (if (s.settle e).2.isSome then .resting else .looking),
      [.settled e (s.settle e).2]) := by
    rw [step_work hreader, work, hparts]
  have hplays := Plays.move hwork
  rw [hout, List.flatMap_singleton, told_settled] at hplays
  exact ⟨_, hplays, hmirrors.withReader _, rfl⟩

theorem drain_plays {q : List Event} (h : s.Mirrors f) (hready : s.IsReady) (hq : f.queue = q)
    (hsingle : ∀ x ∈ q, parts? x = none) :
    ∃ t, Plays s [] ((f.drain q).2.toList.map .event) t ∧ t.Mirrors (f.drain q).1 ∧
      if (f.drain q).2.isSome then t.reader = .resting else t.IsReady := by
  induction q generalizing s f with
  | nil =>
    have hsame : ({ f with queue := [] } : Feed) = f := by rw [← hq]
    rw [drain, hsame]
    exact ⟨s, .refl s, h, hready⟩
  | cons e r ih =>
    obtain ⟨he, hr⟩ := List.forall_mem_cons.mp hsingle
    have hlook : s.step .look = ((s.withCore { s.core with queue := r }).withReader (.working e), []) := by
      have hqueue : s.core.queue = e :: r := by
        rw [← hq, ← h.feed]
      rw [step_look hready, look, hqueue]
    have htaken : ((s.withCore { s.core with queue := r }).withReader (.working e)).Mirrors { f with queue := r } :=
      (h.withCore (h.feed ▸ rfl)).withReader _
    have hqueue := (settle_same { f with queue := r } e).2
    obtain ⟨t, hplays, hmirrors, hreader⟩ := work_plays htaken rfl he
    have hfirst := (Plays.move hlook).trans hplays
    unfold drain
    cases hs : { f with queue := r }.settle e with
    | mk g o =>
      rw [hs] at hfirst hmirrors hreader hqueue
      cases o with
      | some x => exact ⟨t, hfirst, hmirrors, hreader⟩
      | none =>
        obtain ⟨u, hrest, hlast⟩ := ih hmirrors (.inr hreader) hqueue hr
        exact ⟨u, hfirst.trans hrest, hlast⟩

/-- A record that is let in is worked off. -/
theorem take_plays (h : s.Mirrors f) (hreader : s.reader = .working e) (hq : f.queue = []) :
    ∃ t, Plays s [] ((f.take e).2.toList.map .event) t ∧ t.Mirrors (f.take e).1 ∧
      if (f.take e).2.isSome then t.reader = .resting else t.IsReady := by
  unfold take
  cases hparts : parts? e with
  | some es =>
    have hwork : s.step .work = ((s.withCore (s.core.push es)).withReader .looking, s.core.overflow es) := by
      rw [step_work hreader, work, hparts]
    have hqueued : ((s.withCore (s.core.push es)).withReader .looking).Mirrors (f.push es) :=
      (h.withCore (h.feed ▸ rfl)).withReader _
    have hsingle : ∀ x ∈ (f.push es).queue, parts? x = none := by
      intro x hx
      have hmem : x ∈ es ++ f.queue := List.mem_of_mem_take hx
      rw [hq, List.append_nil] at hmem
      exact parts?_of_mem hparts hmem
    obtain ⟨t, hplays, hlast⟩ := drain_plays hqueued (.inr rfl) rfl hsingle
    have hall := (Plays.move hwork).trans hplays
    rw [overflow, input_lost, told_lost] at hall
    exact ⟨t, hall, hlast⟩
  | none =>
    obtain ⟨t, hplays, hmirrors, hlast⟩ := work_plays h hreader hparts
    refine ⟨t, hplays, hmirrors, ?_⟩
    cases hout : (f.settle e).2 with
    | some x => exact hlast.trans (by rw [hout]; rfl)
    | none => exact .inr (hlast.trans (by rw [hout]; rfl))

/-- With nothing queued a line is read next. -/
theorem look_plays (h : s.Mirrors f) (hready : s.IsReady) (hq : f.queue = []) :
    Plays s [] [] (s.withReader .reading) := by
  have hqueue : s.core.queue = [] := by rw [← hq, ← h.feed]
  have hlook : s.step .look = (s.withReader .reading, []) := by
    rw [step_look hready, look, hqueue]
  exact Plays.move hlook

/-- What is told of what is read, or of the wire if there is nothing. -/
def linesTold (f : Feed) (ls : List (List UInt8)) : List Delivery :=
  match f.readLines ls with
  | (_, some d) => readTold (some d)
  | (g, none) => g.atWire.told

section Line

variable {l : List UInt8} {r : List (List UInt8)} {e : Event}

theorem line_blank (hlines : s.core.lines = l :: r) (hl : record? l = none) :
    s.line = (s.withCore { s.core with lines := r }, [.line l none]) := by
  simp only [line, hlines, hl]

theorem line_covered (hlines : s.core.lines = l :: r) (hl : record? l = some e)
    (hseq : (s.withCore { s.core with lines := r }).core.sequence e = .covered) :
    s.line = (s.withCore { s.core with lines := r }, [.line l (some (.covered e))]) := by
  simp only [line, hlines, hl, hseq]

theorem line_gap {a b : UInt64} (hlines : s.core.lines = l :: r) (hl : record? l = some e)
    (hseq : (s.withCore { s.core with lines := r }).core.sequence e = .gap a b) :
    s.line = ((s.withCore ({ s.core with lines := r }.pass e)).withReader .resting, [.line l (some (.gap a b))]) := by
  simp only [line, hlines, hl, hseq]
  rfl

theorem line_next (hlines : s.core.lines = l :: r) (hl : record? l = some e)
    (hseq : (s.withCore { s.core with lines := r }).core.sequence e = .next) :
    s.line = ((s.withCore ({ s.core with lines := r }.pass e)).withReader (.working e),
      [.line l (some (.admitted e))]) := by
  simp only [line, hlines, hl, hseq]
  rfl

end Line

/-- With no line left, whoever asks is told of the wire. -/
theorem exhausted_plays (h : s.Mirrors f) (hreader : s.reader = .reading) (hlines : f.lines = []) :
    Plays s [] f.atWire.told (s.withReader .resting) := by
  have hline : s.step .line = (s.withReader .resting, [.exhausted f.atWire.fault?]) := by
    obtain ⟨-, rfl, -⟩ := h
    rw [step_line hreader, line, show s.core.lines = [] from hlines]
    rfl
  have hplays := Plays.move hline
  rwa [List.flatMap_singleton, told_atWire] at hplays

theorem lines_plays {ls : List (List UInt8)} (h : s.Mirrors f) (hreader : s.reader = .reading)
    (hq : f.queue = []) (hlines : f.lines = ls) :
    ∃ t, Plays s [] (linesTold f ls) t ∧ t.Mirrors (f.readLines ls).1 ∧ t.reader = .resting := by
  unfold linesTold
  induction ls generalizing s f with
  | nil =>
    have hsame : ({ f with lines := [] } : Feed) = f := by rw [← hlines]
    rw [readLines, hsame]
    exact ⟨_, exhausted_plays h hreader hlines, h.withReader _, rfl⟩
  | cons l r ih =>
    have hcons : s.core.lines = l :: r := by
      obtain ⟨-, rfl, -⟩ := h
      exact hlines
    have hseq (e : Event) :
        (s.withCore { s.core with lines := r }).core.sequence e = sequence { f with lines := r } e := by
      obtain ⟨-, rfl, -⟩ := h
      rfl
    have hread : (s.withCore { s.core with lines := r }).Mirrors { f with lines := r } := h.withCore (h.feed ▸ rfl)
    have hpass (e : Event) : (s.withCore ({ s.core with lines := r }.pass e)).Mirrors ({ f with lines := r }.pass e) :=
      h.withCore (h.feed ▸ rfl)
    have hstep := step_line hreader
    unfold readLines
    dsimp only
    cases hl : record? l with
    | none =>
      rw [line_blank hcons hl] at hstep
      obtain ⟨t, hplays, hlast⟩ := ih (f := { f with lines := r }) hread hreader hq rfl
      exact ⟨t, (Plays.move hstep).trans hplays, hlast⟩
    | some e =>
      dsimp only
      cases hs : sequence { f with lines := r } e with
      | covered =>
        rw [line_covered hcons hl ((hseq e).trans hs)] at hstep
        obtain ⟨t, hplays, hlast⟩ := ih (f := { f with lines := r }) hread hreader hq rfl
        exact ⟨t, (Plays.move hstep).trans hplays, hlast⟩
      | gap a b =>
        rw [line_gap hcons hl ((hseq e).trans hs)] at hstep
        exact ⟨_, Plays.move hstep, (hpass e).withReader _, rfl⟩
      | next =>
        rw [line_next hcons hl ((hseq e).trans hs)] at hstep
        obtain ⟨t, hplays, hmirrors, hready⟩ := take_plays ((hpass e).withReader (.working e)) rfl hq
        have htold := (Plays.move hstep).trans hplays
        have hlines' := take_lines (pass { f with lines := r } e) e
        dsimp only
        cases ht : (pass { f with lines := r } e).take e with
        | mk g o =>
          rw [ht] at htold hmirrors hready hlines'
          cases o with
          | some x => exact ⟨t, htold, hmirrors, hready⟩
          | none =>
            have hqueue := take_none_queue (f := pass { f with lines := r } e) hq ht
            have hlook := look_plays hmirrors hready hqueue
            obtain ⟨u, hrest, hlast⟩ := ih (hmirrors.withReader .reading) rfl hqueue hlines'
            exact ⟨u, (htold.trans hlook).trans hrest, hlast⟩

theorem poll_plays (h : s.Mirrors f) (hreader : s.reader = .resting) (hsingle : ∀ x ∈ f.queue, parts? x = none) :
    ∃ t, Plays s [] f.poll.2.told t ∧ t.Mirrors f.poll.1 ∧ t.reader = .resting := by
  obtain ⟨t, hplays, hmirrors, hready⟩ := drain_plays h (.inl hreader) rfl hsingle
  unfold poll
  cases hd : f.drain f.queue with
  | mk g o =>
    rw [hd] at hplays hmirrors hready
    cases o with
    | some e => exact ⟨t, hplays, hmirrors, hready⟩
    | none =>
      have hqueue := drain_none_queue hd
      have hlook := hplays.trans (look_plays hmirrors hready hqueue)
      obtain ⟨u, hread, hlast⟩ := lines_plays (hmirrors.withReader .reading) rfl hqueue rfl
      have hall := hlook.trans hread
      unfold linesTold at hall
      dsimp only
      cases hr : g.readLines g.lines with
      | mk g' o =>
        rw [hr] at hall hlast
        match o with
        | some (.ok e) => exact ⟨u, hall, hlast⟩
        | some (.error x) => exact ⟨u, hall, hlast⟩
        | none => exact ⟨u, hall, hlast⟩

/-! ## Time -/

theorem step_tick {t : Instant} (h : s.core.now ≤ t) :
    s.step (.tick t) = (s.withCore { s.core with now := t }, []) := by
  have hmax : max s.core.now t = t := Int.max_eq_right h
  show (s.withCore { s.core with now := max s.core.now t }, []) = _
  rw [hmax]

/-- The task that is due right now wakes up. -/
theorem wake_due (ht : s.Tethered) {before after : List Held} {x : Held} (hlive : s.live = before ++ x :: after)
    (hdue : x.due = s.core.now) :
    (s.wake x.id).core = s.core ∧ (s.wake x.id).reader = s.reader ∧ (s.wake x.id).live = before ++ after ∧
      (s.wake x.id).awake = s.awake ++ [x] := by
  have hone : (x :: (before ++ after)).Pairwise fun a b => a.id ≠ b.id :=
    (hlive ▸ ht.once).perm List.perm_middle fun hne => hne.symm
  have hothers := (List.pairwise_cons.mp hone).1
  rcases s.wake_eq x.id with ⟨-, hnone⟩ | ⟨y, hy, hcore, hreader, hlive', hawake⟩
  · have hx : x ∈ s.live := by simp [hlive]
    exact absurd (due?_eq_none hnone x hx rfl) (by simp [hdue])
  · obtain ⟨hmem, hid, -⟩ := due?_eq_some hy
    have hyx : y = x := by
      rw [hlive] at hmem
      rcases List.mem_cons.mp (List.perm_middle.mem_iff.mp hmem) with hmem | hmem
      · exact hmem
      · exact absurd hid.symm (hothers y hmem)
    subst hyx
    refine ⟨hcore, hreader, ?_, by rw [hawake, ← hdue]⟩
    rw [hlive', hlive, List.filter_append, List.filter_cons_of_neg (by simp), ← List.filter_append]
    exact List.filter_eq_self.mpr fun z hz => by simpa using (hothers z hz).symm

/-- What falls due is put in front of the queue at once. -/
theorem release_plays (h : s.Mirrors f) {before after : List Held} {x : Held} (hheld : f.held = before ++ x :: after)
    (hnow : f.now ≤ x.due) :
    ∃ t, Plays s [] [] t ∧ t.Mirrors ({ f with held := before ++ after }.release x) ∧ t.reader = s.reader := by
  obtain ⟨ht, rfl, hawake⟩ := h
  -- the time comes, the task wakes up, and puts its event
  let s₁ := s.withCore { s.core with now := x.due }
  have htick : s.step (.tick x.due) = (s₁, []) := step_tick hnow
  have ht₁ : s₁.Tethered := ht.congr rfl rfl rfl rfl
  have hwake : s₁.step (.wake x.id) = (s₁.wake x.id, []) := rfl
  obtain ⟨hcore, hreader, hlive₂, hawake₂⟩ := wake_due ht₁ (show s₁.live = _ from hheld) rfl
  rw [show s₁.awake = [] from hawake, List.nil_append] at hawake₂
  have ht₂ := ht₁.wake x.id
  generalize s₁.wake x.id = s₂ at *
  have hput : s₂.step (.put 0) = ({ s₂ with core := s₂.core.push [x.believed], awake := [] },
      s₁.core.releaseMarks x) := by
    show s₂.put 0 = _
    unfold put
    rw [hawake₂, hcore]
    rfl
  refine ⟨{ s₂ with core := s₂.core.push [x.believed], awake := [] }, ?_, ⟨ht₂.congr rfl rfl rfl rfl, ?_, rfl⟩, hreader⟩
  · have hplays := ((Plays.move htick).trans (Plays.move hwake)).trans (Plays.move hput)
    have hsilent := releaseMarks_silent s₁.core x
    rw [hsilent.1, hsilent.2] at hplays
    exact hplays
  · show ({ s₂.core.push [x.believed] with held := s₂.live } : Feed) = _
    rw [hcore, hlive₂]
    rfl

/-- The session is closed, and what is left of it is time. -/
theorem over_plays (h : s.Mirrors f) (hreader : s.reader = .resting) (wire : Wire) :
    ∃ t, Plays s [.ended] [] t ∧ t.Mirrors { f.disconnect with wire } ∧ t.reader = .resting := by
  obtain ⟨ht, rfl, hawake⟩ := h
  have hclose : s.step .close = (s.close, []) := by
    unfold step
    rw [hreader]
  have hreset : s.close.step (.reset wire) = (s.close.reset wire, [.ended]) := rfl
  obtain ⟨htethered, hlive⟩ := Tethered.reset (s := s.close) (ht.congr rfl rfl rfl rfl) wire
  refine ⟨s.close.reset wire, (Plays.move hclose).trans (Plays.move hreset), ⟨htethered, ?_, hawake⟩, rfl⟩
  rw [hlive]
  rfl

/-! ## Runs -/

/-- The ingestor does what the feed does. -/
def Does (f : Feed) (ins : List Mark) (ds : List Delivery) (g : Feed) : Prop :=
  f.Stocked → g.Stocked ∧ ∀ s : Ingestor, s.Mirrors f → s.reader = .resting →
    ∃ t, Plays s ins ds t ∧ t.Mirrors g ∧ t.reader = .resting

theorem moves_carry : Carries .exact Does where
  refl f hf := ⟨hf, fun s h hreader => ⟨s, .refl s, h, hreader⟩⟩
  trans h h' hf := by
    obtain ⟨hg, hfirst⟩ := h hf
    obtain ⟨hlast, hsecond⟩ := h' hg
    refine ⟨hlast, fun s hs hreader => ?_⟩
    obtain ⟨t, hplays, ht, hrest⟩ := hfirst s hs hreader
    obtain ⟨u, hplays', hu⟩ := hsecond t ht hrest
    exact ⟨u, hplays.trans hplays', hu⟩
  poll h hf := by
    obtain ⟨l, hl, -, -, -⟩ := poll_reaches h
    exact ⟨(hf.steps hl).1, fun s hs hreader => poll_plays hs hreader hf.single⟩
  release hheld hnow hf := by
    refine ⟨(hf.step (c := .exact) (.release hheld hnow)).1, fun s hs hreader => ?_⟩
    obtain ⟨t, hplays, ht, hsame⟩ := release_plays hs hheld (hnow rfl).1
    exact ⟨t, hplays, ht, hsame.trans hreader⟩
  tick := by
    intro f t ht hf
    refine ⟨hf.congr rfl rfl rfl, fun s hs hreader => ?_⟩
    have hnow : s.core.now ≤ t := by
      obtain ⟨-, rfl, -⟩ := hs
      exact (ht rfl).1
    exact ⟨_, Plays.move (step_tick hnow), hs.withCore (hs.feed ▸ rfl), hreader⟩
  receive := by
    intro f bytes _ hf
    refine ⟨hf.congr rfl rfl rfl, fun s hs hreader => ?_⟩
    have hreceive : s.step (.receive bytes) = (s.withCore (s.core.receive bytes), [.received bytes]) := by
      unfold step
      rw [hreader]
    exact ⟨_, Plays.move hreceive, hs.withCore (hs.feed ▸ rfl), hreader⟩
  hangUp := by
    intro f _ hf
    refine ⟨(hf.act (.hangUp f)).1, fun s hs hreader => ?_⟩
    have hhang : s.step .hangUp = (s.withCore s.core.hangUp, []) := rfl
    refine ⟨_, Plays.move hhang, hs.withCore ?_, hreader⟩
    obtain ⟨-, rfl, -⟩ := hs
    cases hw : s.core.wire <;> simp [Feed.hangUp, hw]
  setHorizon := by
    intro f id _ hf
    refine ⟨hf.congr rfl rfl rfl, fun s hs hreader => ?_⟩
    have hset : s.step (.setHorizon id) = (s.withCore (s.core.setHorizon id), [.horizon id]) := by
      unfold step
      rw [hreader]
    exact ⟨_, Plays.move hset, hs.withCore (hs.feed ▸ rfl), hreader⟩
  disconnect := by
    intro f _ _
    exact ⟨.fresh rfl rfl, fun s hs hreader => over_plays hs hreader .absent⟩
  attach := by
    intro f _ _
    exact ⟨.fresh rfl rfl, fun s hs hreader => over_plays hs hreader .live⟩

theorem run_plays (h : f.Punctual) (turns : List Turn) :
    Does f (f.brought turns) ((f.replies turns).flatMap Delivery.told) (f.run turns) := by
  induction turns generalizing f with
  | nil => exact moves_carry.refl f
  | cons a r ih =>
    obtain ⟨hturn, hnext⟩ := moves_carry.turn (fun _ => h) a
    rw [brought, replies, List.flatMap_append]
    exact moves_carry.trans hturn (ih (hnext rfl))

/-- Take any configuration and any turns. There are moves of an ingestor that take from outside what the turns
bring to a feed, that tell what the feed answers, and after which it is that feed again. -/
theorem exists_moves (config : FeedConfig) (turns : List Turn) :
    ∃ moves, ((fresh config).run moves).Mirrors ((Feed.fresh config).run turns) ∧
      ((fresh config).run moves).reader = .resting ∧
      ((fresh config).marks moves).filterMap Mark.input? = (Feed.fresh config).brought turns ∧
      ((fresh config).marks moves).flatMap Mark.told = ((Feed.fresh config).replies turns).flatMap Delivery.told := by
  have hstart : (fresh config).Mirrors (Feed.fresh config) := ⟨.fresh config, rfl, rfl⟩
  obtain ⟨-, hplays⟩ := run_plays (f := .fresh config) (.of_held_nil rfl) turns (.fresh rfl rfl)
  obtain ⟨t, ⟨moves, rfl, hin, htold⟩, hmirrors, hreader⟩ := hplays (fresh config) hstart rfl
  exact ⟨moves, hmirrors, hreader, hin, htold⟩

end Fabric.Ingestor
