import Fabric.Proofs.Pipeline
import Fabric.Proofs.Timeline

/-! A feed in small steps. Whatever is done to a feed is made of a few steps (`Step`): an event is taken
from the queue, a line is read off, something held falls due, time passes. What there is to deliver is found
in such steps, which tell whoever asks just that (`poll_reaches`). -/

namespace Fabric.Feed

variable {f g : Feed} {e : Event} {id : PortId} {up : Bool}

/-! ## One event -/

/-- What becomes of an event by itself. -/
inductive Settles (f : Feed) (e : Event) : Feed × Option Event → Prop where
  /-- It is not about a port. -/
  | other : e.port? = none → Settles f e (f, some e)
  /-- It was held. -/
  | believed {id : PortId} {up : Bool} : e.port? = some (id, up) → e.debounced = some true →
      Settles f e (f.dedupe id up e)
  /-- It need not be held. -/
  | passed {id : PortId} {up : Bool} : e.port? = some (id, up) → e.debounced ≠ some true →
      up = true ∨ f.config.debounce = 0 → Settles f e ((f.drop id).dedupe id up e.believed)
  | held {id : PortId} : e.port? = some (id, false) → e.debounced ≠ some true →
      f.config.debounce ≠ 0 → Settles f e ((f.drop id).hold id e.believed, none)

theorem settles (f : Feed) (e : Event) : Settles f e (f.settle e) := by
  unfold settle
  split
  next s d p up hstate =>
    have hport : e.port? = some (⟨d, p⟩, up) := by simp [Event.port?, hstate]
    split
    next hd => exact .believed hport hd
    next hd =>
      unfold debounce
      dsimp only
      split
      next hnow => exact .passed hport hd (by simpa [drop] using hnow)
      next hnow =>
        obtain ⟨rfl, hw⟩ : up = false ∧ f.config.debounce ≠ 0 := by simpa [drop] using hnow
        exact .held hport hd hw
  next hno =>
    refine .other ?_
    unfold Event.port?
    split
    next hstate => exact absurd hstate (hno _ _ _ _)
    next => rfl

theorem settle_now (f : Feed) (e : Event) : (f.settle e).1.now = f.now := by
  have hsettles := settles f e
  generalize f.settle e = r at *
  cases hsettles <;> rfl

theorem settle_config (f : Feed) (e : Event) : (f.settle e).1.config = f.config := by
  have hsettles := settles f e
  generalize f.settle e = r at *
  cases hsettles <;> rfl

/-- A part of a record is about one port or one host. -/
theorem mem_parts {es : List Event} (hparts : parts? e = some es) {x : Event} (hx : x ∈ es) :
    (∃ port up, x = e.ofPort port up) ∨ ∃ l, x = e.ofLearn l := by
  obtain ⟨_, ⟨_, ports, _, _, _, rfl⟩ | ⟨ls, _, _, rfl⟩⟩ := parts?_eq_some hparts
  · obtain ⟨p, _, rfl⟩ := List.mem_map.mp hx
    exact .inl ⟨p.1, p.2, rfl⟩
  · obtain ⟨l, _, rfl⟩ := List.mem_map.mp hx
    exact .inr ⟨l, rfl⟩

/-- What is about one port, or is a part already, is not about many. -/
theorem parts?_of_port (h : e.port? = some (id, up)) : parts? e = none := by
  unfold Event.port? at h
  unfold parts?
  split at h
  next hstate => rw [hstate]
  next => cases h

theorem parts?_of_mem {es : List Event} (hparts : parts? e = some es) {x : Event} (hx : x ∈ es) :
    parts? x = none := by
  rcases mem_parts hparts hx with ⟨p, up, rfl⟩ | ⟨_, rfl⟩
  · unfold parts?
    cases (e.ofPort p up).portState? <;> rfl
  · rfl

/-! ## What is held -/

/-- Nothing held is due yet, what was held first is due first, and nothing waits longer than what
is held from now on. -/
structure Punctual (f : Feed) : Prop where
  ahead : ∀ h ∈ f.held, f.now < h.due
  ordered : f.held.Pairwise fun a b => a.due ≤ b.due
  soon : ∀ h ∈ f.held, h.due ≤ f.now + f.config.debounce

namespace Punctual

theorem of_held_nil (h : f.held = []) : f.Punctual :=
  ⟨by simp [h], by simp [h], by simp [h]⟩

theorem drop (h : f.Punctual) (id : PortId) : (f.drop id).Punctual where
  ahead x hx := h.ahead x (List.mem_filter.mp hx).1
  ordered := h.ordered.filter _
  soon x hx := h.soon x (List.mem_filter.mp hx).1

theorem hold (h : f.Punctual) (hw : f.config.debounce ≠ 0) (id : PortId) (e : Event) :
    (f.hold id e).Punctual where
  ahead x hx := by
    rcases List.mem_append.mp hx with hx | hx
    · exact h.ahead x hx
    · rw [List.mem_singleton.mp hx]
      exact Int.lt_add_of_pos_right _ (Int.natCast_pos.mpr (Nat.pos_of_ne_zero hw))
  ordered := by
    refine List.pairwise_append.mpr ⟨h.ordered, List.pairwise_singleton .., fun a ha b hb => ?_⟩
    rw [List.mem_singleton.mp hb]
    exact h.soon a ha
  soon x hx := by
    rcases List.mem_append.mp hx with hx | hx
    · exact h.soon x hx
    · rw [List.mem_singleton.mp hx]
      exact Int.le_refl _

theorem settle (h : f.Punctual) (e : Event) : (f.settle e).1.Punctual := by
  have hsettles := settles f e
  generalize f.settle e = r at *
  cases hsettles with
  | other => exact h
  | believed => exact ⟨h.ahead, h.ordered, h.soon⟩
  | @passed id up => exact ⟨(h.drop id).ahead, (h.drop id).ordered, (h.drop id).soon⟩
  | @held id _ _ hw => exact (h.drop id).hold hw id e.believed

end Punctual

/-! ## Steps -/

/-- What does not fit into the queue is lost at its tail. -/
def overflow (f : Feed) (es : List Event) : List Mark := ((es ++ f.queue).drop f.config.capacity).map .lost

/-- What falls due is believed when it stands in front of the queue, for which there may be no room. -/
def releaseMarks (f : Feed) (h : Held) : List Mark :=
  ((f.release h).queue.take 1).map (.believed h.id) ++ f.overflow [h.believed]

/-- What happens at one time, and the feed after it. Lines are looked at when nothing is queued. -/
inductive Act : Feed → List Mark → Feed → Prop where
  | receive (f : Feed) (bytes : List UInt8) : Act f [.received bytes] (f.receive bytes)
  | hangUp (f : Feed) : Act f [] f.hangUp
  | pop {f : Feed} {e : Event} {r : List Event} : f.queue = e :: r →
      Act f [.settled e ({ f with queue := r }.settle e).2] ({ f with queue := r }.settle e).1
  | blank {f : Feed} {l : List UInt8} {r : List (List UInt8)} : f.queue = [] → f.lines = l :: r →
      record? l = none → Act f [.line l none] { f with lines := r }
  | covered {f : Feed} {l : List UInt8} {r : List (List UInt8)} {e : Event} : f.queue = [] →
      f.lines = l :: r → record? l = some e → f.sequence e = .covered →
      Act f [.line l (some (.covered e))] { f with lines := r }
  | gap {f : Feed} {l : List UInt8} {r : List (List UInt8)} {e : Event} {expected got : UInt64} :
      f.queue = [] → f.lines = l :: r → record? l = some e → f.sequence e = .gap expected got →
      Act f [.line l (some (.gap expected got))] ({ f with lines := r }.pass e)
  /-- A record about many is queued in parts. -/
  | bulk {f : Feed} {l : List UInt8} {r : List (List UInt8)} {e : Event} {es : List Event} :
      f.queue = [] → f.lines = l :: r → record? l = some e → f.sequence e = .next → parts? e = some es →
      Act f (.line l (some (.admitted e)) :: f.overflow es) (({ f with lines := r }.pass e).push es)
  | single {f : Feed} {l : List UInt8} {r : List (List UInt8)} {e : Event} :
      f.queue = [] → f.lines = l :: r → record? l = some e → f.sequence e = .next → parts? e = none →
      Act f [.line l (some (.admitted e)), .settled e (({ f with lines := r }.pass e).settle e).2]
        (({ f with lines := r }.pass e).settle e).1
  | exhausted {f : Feed} : f.queue = [] → f.lines = [] → Act f [.exhausted f.atWire.fault?] f
  | horizon (f : Feed) (id : UInt64) : Act f [.horizon id] (f.setHorizon id)
  | disconnect (f : Feed) : Act f [.ended] f.disconnect
  | attach (f : Feed) : Act f [.ended] f.attach

/-- On an exact clock nothing else happens while something held is due. -/
inductive Clock where
  | exact
  | any

/-- One step, what happens in it, and the feed after it. -/
inductive Step (c : Clock) : Feed → List Mark → Feed → Prop where
  | act {f g : Feed} {ms : List Mark} : (c = .exact → f.Punctual) → Act f ms g → Step c f ms g
  | tick {f : Feed} {t : Instant} : (c = .exact → f.now ≤ t ∧ ∀ h ∈ f.held, t < h.due) →
      Step c f [] { f with now := t }
  | release {f : Feed} {before after : List Held} {h : Held} : f.held = before ++ h :: after →
      (c = .exact → f.now ≤ h.due ∧ ∀ x ∈ before ++ after, h.due ≤ x.due) →
      Step c f (f.releaseMarks h) ({ f with held := before ++ after }.release h)

inductive Steps (c : Clock) : Feed → Timeline → Feed → Prop where
  | refl (f : Feed) : Steps c f [] f
  | snoc {f g g' : Feed} {l : Timeline} {ms : List Mark} : Steps c f l g → Step c g ms g' →
      Steps c f (l ++ ms.map (⟨·, g'⟩)) g'

variable {c : Clock} {l m : Timeline} {ms : List Mark}

theorem Steps.one (h : Step c f ms g) : Steps c f (ms.map (⟨·, g⟩)) g := by
  simpa using (Steps.refl f).snoc h

theorem Steps.trans {g' : Feed} (h : Steps c f l g) (h' : Steps c g m g') : Steps c f (l ++ m) g' := by
  induction h' with
  | refl => simpa using h
  | snoc _ hs ih =>
    rw [← List.append_assoc]
    exact ih.snoc hs

theorem Act.now (h : Act f ms g) : g.now = f.now := by
  cases h with
  | pop | single => exact settle_now _ _
  | hangUp =>
    obtain ⟨w, hw⟩ := hangUp_eq f
    rw [hw]
  | _ => rfl

theorem Act.config (h : Act f ms g) : g.config = f.config := by
  cases h with
  | pop | single => exact settle_config _ _
  | hangUp =>
    obtain ⟨w, hw⟩ := hangUp_eq f
    rw [hw]
  | _ => rfl

theorem Step.config (h : Step c f ms g) : g.config = f.config := by
  cases h with
  | act _ h => exact h.config
  | tick | release => rfl

theorem Steps.config (h : Steps c f l g) : g.config = f.config := by
  induction h with
  | refl => rfl
  | snoc _ hs ih => exact hs.config.trans ih

theorem Steps.configs (h : Steps c f l g) : ∀ m ∈ l, m.after.config = f.config := by
  induction h with
  | refl => simp
  | snoc hbefore hstep ih =>
    refine List.forall_mem_append.mpr ⟨ih, fun m hm => ?_⟩
    obtain ⟨_, _, rfl⟩ := List.mem_map.mp hm
    exact hstep.config.trans hbefore.config

theorem Step.now_le (h : Step .exact f ms g) : f.now ≤ g.now := by
  cases h with
  | act _ h => exact Int.le_of_eq h.now.symm
  | tick ht => exact (ht rfl).1
  | release _ hnow => exact (hnow rfl).1

/-- Things happen in order. -/
theorem Steps.times (h : Steps .exact f l g) : l.Pairwise (·.time ≤ ·.time) ∧ ∀ m ∈ l, m.time ≤ g.now := by
  induction h with
  | refl => simp
  | @snoc g g' l ms _ hs ih =>
    have hnow := hs.now_le
    have hbefore : ∀ x ∈ l, x.time ≤ g'.now := fun x hx => Int.le_trans (ih.2 x hx) hnow
    refine ⟨List.pairwise_append.mpr ⟨ih.1, ?_, fun x hx y hy => ?_⟩,
      List.forall_mem_append.mpr ⟨hbefore, fun x hx => ?_⟩⟩
    · exact List.pairwise_map.mpr (List.pairwise_of_forall fun _ _ => Int.le_refl _)
    · obtain ⟨_, _, rfl⟩ := List.mem_map.mp hy
      exact hbefore x hx
    · obtain ⟨_, _, rfl⟩ := List.mem_map.mp hx
      exact Int.le_refl _

/-- Small steps that take from outside what is in `ins` and tell `ds`, to a feed that is punctual again. -/
def Reaches (c : Clock) (f : Feed) (ins : List Mark) (ds : List Delivery) (g : Feed) : Prop :=
  ∃ l, Steps c f l g ∧ l.inputs = ins ∧ l.told = ds ∧ (c = .exact → g.Punctual)

namespace Reaches

variable {g' : Feed} {ins ins' : List Mark} {ds ds' : List Delivery}

theorem refl (h : c = .exact → f.Punctual) : Reaches c f [] [] f := ⟨[], .refl f, rfl, rfl, h⟩

theorem trans (h : Reaches c f ins ds g) (h' : Reaches c g ins' ds' g') :
    Reaches c f (ins ++ ins') (ds ++ ds') g' := by
  obtain ⟨l, hl, rfl, rfl, -⟩ := h
  obtain ⟨m, hm, rfl, rfl, hg'⟩ := h'
  exact ⟨l ++ m, hl.trans hm, Timeline.inputs_append l m, Timeline.told_append l m, hg'⟩

theorem punctual (h : Reaches c f ins ds g) : c = .exact → g.Punctual := by
  obtain ⟨_, _, _, _, hg⟩ := h
  exact hg

theorem step (h : Step c f ms g) (hg : c = .exact → g.Punctual) :
    Reaches c f (ms.filterMap Mark.input?) (ms.flatMap Mark.told) g := by
  refine ⟨_, .one h, ?_, ?_, hg⟩
  · rw [Timeline.inputs_at]
  · rw [Timeline.told, List.flatMap_map]

theorem act (hf : c = .exact → f.Punctual) (h : Act f ms g) (hg : f.Punctual → g.Punctual) :
    Reaches c f (ms.filterMap Mark.input?) (ms.flatMap Mark.told) g :=
  .step (.act hf h) fun hc => hg (hf hc)

end Reaches

/-- Only what is held, the time and the window make a feed punctual. -/
theorem Punctual.congr (h : f.Punctual) (hh : g.held = f.held) (hn : g.now = f.now)
    (hc : g.config = f.config) : g.Punctual :=
  ⟨hh ▸ hn ▸ h.ahead, hh ▸ h.ordered, hh ▸ hn ▸ hc ▸ h.soon⟩

theorem mem_overflow {es : List Event} {a : Mark} (h : a ∈ f.overflow es) : ∃ x, a = .lost x := by
  obtain ⟨x, _, rfl⟩ := List.mem_map.mp h
  exact ⟨x, rfl⟩

theorem mem_releaseMarks {h : Held} {a : Mark} (ha : a ∈ f.releaseMarks h) :
    (∃ x, a = .believed h.id x) ∨ ∃ x, a = .lost x := by
  rcases List.mem_append.mp ha with ha | ha
  · obtain ⟨x, _, rfl⟩ := List.mem_map.mp ha
    exact .inl ⟨x, rfl⟩
  · exact .inr (mem_overflow ha)

theorem told_lost (es : List Event) : (es.map Mark.lost).flatMap Mark.told = [] := by
  simp [List.flatMap_map, Mark.told]

theorem input_lost (es : List Event) : (es.map Mark.lost).filterMap Mark.input? = [] := by
  simp [List.filterMap_map, Mark.input?]

theorem delivered_lost (es : List Event) : (es.map Mark.lost).filterMap Mark.delivered? = [] := by
  simp [List.filterMap_map, Mark.delivered?]

theorem told_settled (e : Event) (out : Option Event) : (Mark.settled e out).told = out.toList.map .event := by
  cases out <;> rfl

/-! ## What there is to deliver -/

theorem drain_reaches {q : List Event} (h : c = .exact → f.Punctual) (hq : f.queue = q) :
    Reaches c f [] ((f.drain q).2.toList.map .event) (f.drain q).1 := by
  induction q generalizing f with
  | nil =>
    have hsame : ({ f with queue := [] } : Feed) = f := by rw [← hq]
    rw [drain, hsame]
    exact .refl h
  | cons e r ih =>
    have hpop := Reaches.act h (.pop hq) fun hp =>
      Punctual.settle (f := { f with queue := r }) (hp.congr rfl rfl rfl) e
    have hqueue := (settle_same { f with queue := r } e).2
    rw [List.flatMap_singleton, told_settled] at hpop
    unfold drain
    cases hs : { f with queue := r }.settle e with
    | mk g o =>
      rw [hs] at hpop hqueue
      cases o with
      | some x => exact hpop
      | none => exact hpop.trans (ih hpop.punctual hqueue)

/-- A record that is let in is worked off. -/
theorem take_reaches {line : List UInt8} {r : List (List UInt8)} (h : c = .exact → f.Punctual)
    (hq : f.queue = []) (hlines : f.lines = line :: r) (hl : record? line = some e)
    (hseq : f.sequence e = .next) :
    Reaches c f [] ((({ f with lines := r }.pass e).take e).2.toList.map .event)
      (({ f with lines := r }.pass e).take e).1 := by
  unfold take
  cases hparts : parts? e with
  | some es =>
    have hbulk := Reaches.act h (.bulk hq hlines hl hseq hparts) fun hp => hp.congr rfl rfl rfl
    rw [List.filterMap_cons_none rfl, List.flatMap_cons, overflow, input_lost, told_lost] at hbulk
    exact hbulk.trans (drain_reaches hbulk.punctual rfl)
  | none =>
    have hsingle := Reaches.act h (.single hq hlines hl hseq hparts) fun hp =>
      Punctual.settle (f := { f with lines := r }.pass e) (hp.congr rfl rfl rfl) e
    rw [List.flatMap_cons, List.flatMap_singleton, told_settled] at hsingle
    exact hsingle

/-- What is told of what is read. -/
def readTold : Option (Except Fault Event) → List Delivery
  | some (.ok e) => [.event e]
  | some (.error x) => [.fault x]
  | none => []

theorem readLines_reaches {ls : List (List UInt8)} (h : c = .exact → f.Punctual) (hq : f.queue = [])
    (hlines : f.lines = ls) : Reaches c f [] (readTold (f.readLines ls).2) (f.readLines ls).1 := by
  induction ls generalizing f with
  | nil =>
    have hsame : ({ f with lines := [] } : Feed) = f := by rw [← hlines]
    rw [readLines, hsame]
    exact .refl h
  | cons line r ih =>
    have hskip (ms : List Mark) (hact : Act f ms { f with lines := r }) (hin : ms.filterMap Mark.input? = [])
        (htold : ms.flatMap Mark.told = []) :
        Reaches c f [] (readTold ({ f with lines := r }.readLines r).2) ({ f with lines := r }.readLines r).1 := by
      have hstep := Reaches.act h hact fun hp => hp.congr rfl rfl rfl
      rw [hin, htold] at hstep
      exact hstep.trans (ih hstep.punctual hq rfl)
    unfold readLines
    dsimp only
    cases hl : record? line with
    | none => exact hskip _ (.blank hq hlines hl) rfl rfl
    | some e =>
      dsimp only
      cases hseq : sequence { f with lines := r } e with
      | covered => exact hskip _ (.covered hq hlines hl hseq) rfl rfl
      | gap a b => exact Reaches.act h (.gap hq hlines hl hseq) fun hp => hp.congr rfl rfl rfl
      | next =>
        have htake := take_reaches h hq hlines hl hseq
        have hlines' := take_lines (pass { f with lines := r } e) e
        dsimp only
        cases ht : (pass { f with lines := r } e).take e with
        | mk g o =>
          rw [ht] at htake hlines'
          cases o with
          | some x => exact htake
          | none =>
            have hqueue := take_none_queue (f := pass { f with lines := r } e) hq ht
            exact htake.trans (ih htake.punctual hqueue hlines')

/-- When nothing is handed over nothing is left. -/
theorem readLines_none {ls : List (List UInt8)} (hq : f.queue = []) (h : f.readLines ls = (g, none)) :
    g.queue = [] ∧ g.lines = [] := by
  induction ls generalizing f with
  | nil =>
    cases h
    exact ⟨hq, rfl⟩
  | cons line r ih =>
    unfold readLines at h
    dsimp only at h
    split at h
    · exact ih (f := { f with lines := r }) hq h
    next e _ =>
      split at h
      · exact ih (f := { f with lines := r }) hq h
      · cases h
      · split at h
        · cases h
        next heq => exact ih (take_none_queue (f := pass { f with lines := r } e) hq heq) h

theorem told_atWire (f : Feed) : (Mark.exhausted f.atWire.fault?).told = f.atWire.told := by
  unfold atWire
  split <;> rfl

theorem poll_reaches (h : c = .exact → f.Punctual) : Reaches c f [] f.poll.2.told f.poll.1 := by
  have hdrain := drain_reaches h rfl
  unfold poll
  cases hd : f.drain f.queue with
  | mk g o =>
    rw [hd] at hdrain
    cases o with
    | some e => exact hdrain
    | none =>
      have hqueue := drain_none_queue hd
      have hread := hdrain.trans (readLines_reaches hdrain.punctual hqueue rfl)
      dsimp only
      cases hr : g.readLines g.lines with
      | mk g' o =>
        rw [hr] at hread
        match o with
        | some (.ok e) => exact hread
        | some (.error x) => exact hread
        | none =>
          obtain ⟨hq', hl'⟩ := readLines_none hqueue hr
          have hend := Reaches.act hread.punctual (.exhausted hq' hl') fun hp => hp
          rw [List.flatMap_singleton, told_atWire] at hend
          exact hread.trans hend

end Fabric.Feed
