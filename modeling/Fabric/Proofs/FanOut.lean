import Fabric.Proofs.Sequence
import Fabric.Proofs.Track

/-! Records about many ports or hosts. Such a record is never handed over itself; one event for each
of its entries is queued, and the queue is worked off before another record is let in. What falls due
meanwhile goes ahead of the queue and may push events out at its tail. So at any time a first part of
the events is worked off, a next part is queued behind what was believed, and the rest is cut: two
numbers say how far a record has unfolded, and every step moves one of them. -/

namespace Fabric

open Feed

namespace Event

/-- A record that carries the states of many ports, or many learned hosts, and nothing that goes before
that, with the events that its entries stand for. -/
inductive Bulk (e : Event) : List Event → Prop where
  | ports {d : UInt64} {ports : Table UInt32 Bool} : e.dpId = some d → e.portChange = none →
      e.portsStatus = some ports → Bulk e (ports.toList.map fun (p, up) => e.ofPort p up)
  | hosts {ls : List Learn} : e.portChange = none → e.portsStatus = none → e.learnedMacs = some ls →
      Bulk e (ls.map e.ofLearn)

theorem Bulk.parts {e : Event} {es : List Event} (h : e.Bulk es) : parts? e = some es := by
  cases h with
  | ports hd hport hports => simp [parts?, portState?, hport, portsStatus?, hd, hports]
  | hosts hport hports hls => simp [parts?, portState?, hport, portsStatus?, hports, hls]

end Event

namespace Event

/-- What of an event is handed over, if `known` was shown last of its port: all but a port at once, and a
port unless it has to wait or is known. -/
def handed? (w : Nat) (known : PortId → Option Bool) (e : Event) : Option Event :=
  match e.port? with
  | none => some e
  | some (id, up) =>
    if known id = some up then none
    else if e.debounced = some true then some e
    else if up = true ∨ w = 0 then some e.believed
    else none

end Event

namespace Mark

/-- The next line, or the end of the session, closes what went on before. -/
def closes : Mark → Bool
  | line _ _ | ended => true
  | _ => false

/-- An event that is worked off and was not held before. -/
def worked? : Mark → Option Event
  | settled e _ => if e.debounced = some true then none else some e
  | _ => none

/-- What changes what is shown. -/
def moves : Mark → Bool
  | settled _ _ | ended => true
  | _ => false

def fired? : Mark → Option Event
  | believed _ e => some e
  | _ => none

/-- An event that is lost before anybody has looked at it. -/
def cut? : Mark → Option Event
  | lost e => if e.debounced = some true then none else some e
  | _ => none

end Mark

namespace Timeline

def marks (l : Timeline) : List Mark := l.map (·.mark)

theorem marks_append (l m : Timeline) : marks (l ++ m) = l.marks ++ m.marks := List.map_append

theorem marks_at (ms : List Mark) (g : Feed) : marks (ms.map (⟨·, g⟩)) = ms := by
  rw [marks, List.map_map]
  exact List.map_id ms

/-- A record that is let in, all that happens until another line is looked at or the session ends, and
what comes after that. -/
structure Stretch (l : Timeline) (e : Event) (during after : Timeline) : Prop where
  split : ∃ before line g, l = before ++ ⟨.line line (some (.admitted e)), g⟩ :: (during ++ after)
  onward : ∀ x ∈ during, x.mark.closes = false
  closed : ∀ x ∈ after.head?, x.mark.closes = true

/-- Whatever was let in starts a stretch. -/
theorem exists_stretch {l : Timeline} {e : Event} {x : Moment} {line : List UInt8} (hx : x ∈ l)
    (hmark : x.mark = .line line (some (.admitted e))) : ∃ during after, l.Stretch e during after := by
  obtain ⟨before, post, rfl⟩ := List.append_of_mem hx
  obtain ⟨a, g⟩ := x
  obtain rfl : a = .line line (some (.admitted e)) := hmark
  refine ⟨post.takeWhile (!·.mark.closes), post.dropWhile (!·.mark.closes), ⟨before, line, g, ?_⟩, ?_, ?_⟩
  · rw [List.takeWhile_append_dropWhile]
  · intro y hy
    simpa using List.all_eq_true.mp List.all_takeWhile y hy
  · intro y hy
    have hhead := List.head?_dropWhile_not (fun y : Moment => !y.mark.closes) post
    rw [Option.mem_def.mp hy] at hhead
    simpa using hhead

end Timeline

namespace Feed

variable {f g : Feed} {e : Event} {es : List Event} {c : Clock} {l during : Timeline} {ms : List Mark}
  {k m room : Nat}

/-! ## The events of a record -/

/-- Each part has the switch, the number and the time of the record and is about a port if the record is,
ports come in ascending order, and a part goes the way of any other event: news of a port is debounced, a
host is handed over. -/
structure Parts (e : Event) (es : List Event) : Prop where
  stamped : ∀ x ∈ es, x.switch = e.switch ∧ x.dpId = e.dpId ∧ x.id = e.id ∧ x.time = e.time
  about : ∀ x ∈ es, x.port?.isSome = e.portsStatus.isSome
  ascending : ((es.filterMap (·.portChange)).map (·.port)).Pairwise (· < ·)
  settled : ∀ x ∈ es, ∀ f : Feed, f.settle x =
    match x.port? with
    | some (id, up) => f.debounce id up x
    | none => (f, some x)

theorem settle_raw (f : Feed) (hraw : e.debounced ≠ some true) : f.settle e =
    match e.port? with
    | some (id, up) => f.debounce id up e
    | none => (f, some e) := by
  unfold settle Event.port?
  cases e.portState? with
  | none => rfl
  | some r => cases r <;> simp [hraw]

theorem Parts.of_bulk (h : e.Bulk es) : Parts e es where
  stamped x hx := by
    rcases mem_parts h.parts hx with ⟨_, _, rfl⟩ | ⟨_, rfl⟩ <;> exact ⟨rfl, rfl, rfl, rfl⟩
  about x hx := by
    cases h with
    | ports hd _ hports =>
      obtain ⟨p, -, rfl⟩ := List.mem_map.mp hx
      simp [Event.port?, Event.portState?, Event.ofPort, Event.bare, hd, hports]
    | hosts _ hports =>
      obtain ⟨p, -, rfl⟩ := List.mem_map.mp hx
      rw [hports]
      rfl
  ascending := by
    cases h with
    | @ports _ ports =>
      have hnumbers : ((ports.toList.map fun (p, up) => e.ofPort p up).filterMap (·.portChange)).map (·.port) =
          ports.keys := by
        simp [List.filterMap_map, Function.comp_def, Event.ofPort, Table.keys, Table.toList]
      rw [hnumbers]
      exact List.pairwise_map.mpr (ports.ascending.imp compareOfLessAndEq_eq_lt.mp)
    | @hosts ls =>
      have hnone : (ls.map e.ofLearn).filterMap (·.portChange) = [] := by
        simp [List.filterMap_map, Event.ofLearn, Event.bare, Event.empty]
      rw [hnone]
      exact .nil
  settled x hx f := settle_raw f (raw_parts h.parts x hx)

/-! ## What a feed has in stock -/

/-- No more is queued than there is room for, no record about many is queued, and all that is held are downs
that will be believed. -/
structure Stocked (f : Feed) : Prop where
  bound : f.queue.length ≤ f.config.capacity
  single : ∀ x ∈ f.queue, parts? x = none
  held : ∀ x ∈ f.held, x.event.Ripe x.id

/-- An event that may be handed over: no record about many, and of a port only what has been debounced. -/
structure Handed (x : Event) : Prop where
  single : parts? x = none
  debounced : x.port? ≠ none → x.debounced = some true

namespace Stocked

theorem fresh (hq : f.queue = []) (hh : f.held = []) : Stocked f :=
  ⟨by simp [hq], by simp [hq], by simp [hh]⟩

theorem congr (h : Stocked f) (hq : g.queue = f.queue) (hh : g.held = f.held) (hc : g.config = f.config) :
    Stocked g :=
  ⟨by rw [hq, hc]; exact h.bound, hq ▸ h.single, hh ▸ h.held⟩

theorem push (h : Stocked f) (hes : ∀ x ∈ es, parts? x = none) : Stocked (f.push es) where
  bound := List.length_take_le _ _
  single x hx := (List.mem_append.mp (List.mem_of_mem_take hx)).elim (hes x) (h.single x)
  held := h.held

theorem settle (h : Stocked f) (he : parts? e = none) :
    Stocked (f.settle e).1 ∧ ∀ x ∈ (f.settle e).2, Handed x := by
  have hsettles := settles f e
  generalize f.settle e = r at *
  cases hsettles with
  | other hport => exact ⟨h, fun x hx => Option.mem_some.mp hx ▸ ⟨he, absurd hport⟩⟩
  | believed hport hd =>
    refine ⟨h.congr rfl rfl rfl, fun x hx => ?_⟩
    simp only [dedupe] at hx
    split at hx
    · cases hx
    · exact Option.mem_some.mp hx ▸ ⟨he, fun _ => hd⟩
  | @passed id up hport =>
    refine ⟨⟨h.bound, h.single, fun x hx => h.held x (List.mem_filter.mp hx).1⟩, fun x hx => ?_⟩
    simp only [dedupe] at hx
    split at hx
    · cases hx
    · exact Option.mem_some.mp hx ▸ ⟨parts?_of_port (e := e.believed) hport, fun _ => rfl⟩
  | @held id hport =>
    refine ⟨⟨h.bound, h.single, fun x hx => ?_⟩, by simp⟩
    rcases List.mem_append.mp hx with hx | hx
    · exact h.held x (List.mem_filter.mp hx).1
    · rw [List.mem_singleton.mp hx]
      exact ⟨rfl, hport⟩

theorem act (h : Stocked f) (hs : Act f ms g) :
    Stocked g ∧ ∀ x ∈ ms.filterMap Mark.delivered?, Handed x := by
  cases hs with
  | receive | blank | covered | gap | exhausted | horizon =>
    exact ⟨h.congr rfl rfl rfl, by simp [Mark.delivered?]⟩
  | disconnect | attach => exact ⟨.fresh rfl rfl, by simp [Mark.delivered?]⟩
  | hangUp =>
    obtain ⟨w, hw⟩ := hangUp_eq f
    rw [hw]
    exact ⟨h.congr rfl rfl rfl, List.forall_mem_nil _⟩
  | @pop x r hqueue =>
    have hr : Stocked { f with queue := r } := by
      refine ⟨?_, fun y hy => h.single y (by simp [hqueue, hy]), h.held⟩
      have hbound := h.bound
      rw [hqueue] at hbound
      exact Nat.le_of_succ_le hbound
    have hsettle := hr.settle (h.single x (by simp [hqueue]))
    exact ⟨hsettle.1, fun y hy => hsettle.2 y (by simpa [Mark.delivered?] using hy)⟩
  | @bulk _ r x es _ _ _ _ hparts =>
    have hpass : Stocked ({ f with lines := r }.pass x) := h.congr rfl rfl rfl
    refine ⟨hpass.push fun y hy => parts?_of_mem hparts hy, ?_⟩
    rw [List.filterMap_cons_none rfl, overflow, delivered_lost]
    exact List.forall_mem_nil _
  | @single _ r x _ _ _ _ hparts =>
    have hpass : Stocked ({ f with lines := r }.pass x) := h.congr rfl rfl rfl
    have hsettle := hpass.settle hparts
    exact ⟨hsettle.1, fun y hy => hsettle.2 y (by simpa [Mark.delivered?] using hy)⟩

theorem step (h : Stocked f) (hs : Step c f ms g) :
    Stocked g ∧ ∀ x ∈ ms.filterMap Mark.delivered?, Handed x := by
  cases hs with
  | act _ hact => exact h.act hact
  | tick => exact ⟨h.congr rfl rfl rfl, List.forall_mem_nil _⟩
  | @release before after x hheld =>
    have hx : x.event.Ripe x.id := h.held x (by simp [hheld])
    have hr : Stocked { f with now := x.due, held := before ++ after } :=
      ⟨h.bound, h.single, fun y hy => h.held y (by rw [hheld]; simp at hy ⊢; tauto)⟩
    refine ⟨hr.push fun y hy => ?_, fun y hy => ?_⟩
    · rw [List.mem_singleton.mp hy]
      exact parts?_of_port (e := x.believed) hx.2
    · obtain ⟨a, ha, hy⟩ := List.mem_filterMap.mp hy
      rcases mem_releaseMarks ha with ⟨_, rfl⟩ | ⟨_, rfl⟩ <;> cases hy

theorem steps (h : Stocked f) (hs : Steps c f l g) :
    Stocked g ∧ (∀ x ∈ l.delivered, Handed x) ∧ ∀ m ∈ l, Stocked m.after := by
  induction hs with
  | refl => exact ⟨h, by simp [Timeline.delivered], by simp⟩
  | snoc _ hstep ih =>
    obtain ⟨hg, hhanded, hall⟩ := ih
    obtain ⟨hg', hlast⟩ := hg.step hstep
    refine ⟨hg', ?_, List.forall_mem_append.mpr ⟨hall, fun m hm => ?_⟩⟩
    · rw [Timeline.delivered_append, Timeline.delivered_at]
      exact List.forall_mem_append.mpr ⟨hhanded, hlast⟩
    · obtain ⟨_, _, rfl⟩ := List.mem_map.mp hm
      exact hg'

end Stocked

/-! ## What is handed over -/

/-- The feed knows what was shown last of every port, and what was worked off was handed over as
`handed?` says. -/
structure Shows (l : Timeline) (f : Feed) : Prop where
  known : ∀ id, f.previous.get? id = l.latest (Mark.shown? id)
  handed : ∀ (pre : Timeline) x out g post, l = pre ++ ⟨.settled x out, g⟩ :: post →
    out = x.handed? f.config.debounce fun id => pre.latest (Mark.shown? id)

theorem settle_handed (f : Feed) (e : Event) :
    (f.settle e).2 = e.handed? f.config.debounce (f.previous.get? ·) ∧
      ∀ id, (f.settle e).1.previous.get? id =
        ((f.settle e).2.bind (·.upOf? id)).or (f.previous.get? id) := by
  have hsettles := settles f e
  generalize f.settle e = r at *
  cases hsettles with
  | other hport => simp [Event.handed?, hport, Event.upOf?_eq_none hport]
  | @believed x up hport hd =>
    refine ⟨?_, fun id => (shown_dedupe f id hport).symm⟩
    simp [Event.handed?, hport, hd, dedupe]
  | @passed x up hport hd hnow =>
    refine ⟨?_, fun id => (shown_dedupe (f.drop x) id (e := e.believed) hport).symm⟩
    simp [Event.handed?, hport, hd, hnow, dedupe, drop]
  | held hport hd hw => simp [Event.handed?, hport, hd, hw, hold, drop]

namespace Shows

theorem snoc {x : Moment} (h : Shows l f) (hconfig : g.config = f.config)
    (hhanded : ∀ e out, x.mark = .settled e out → out = e.handed? f.config.debounce (f.previous.get? ·))
    (hknown : ∀ id, g.previous.get? id =
      if x.mark.isEnd then none else (x.mark.shown? id).or (f.previous.get? id)) : Shows (l ++ [x]) g where
  known id := by
    have hlatest : Timeline.latest (Mark.shown? id) (l ++ [x]) =
        if x.mark.isEnd then none else (x.mark.shown? id).or (l.latest (Mark.shown? id)) := List.foldl_append
    rw [hlatest, ← h.known, hknown]
  handed pre y out g' post heq := by
    rw [hconfig]
    rcases List.eq_nil_or_concat post with rfl | ⟨post, z, rfl⟩
    · obtain ⟨rfl, hlast⟩ := List.append_inj' heq rfl
      obtain rfl := List.singleton_inj.mp hlast
      rw [hhanded y out rfl]
      exact congrArg (y.handed? _) (funext h.known)
    · rw [List.concat_eq_append, ← List.cons_append, ← List.append_assoc] at heq
      obtain ⟨hl, -⟩ := List.append_inj' heq rfl
      exact h.handed pre y out g' post hl

theorem still (h : Shows l f) (hconfig : g.config = f.config) (hprevious : g.previous = f.previous)
    (hms : ∀ a ∈ ms, a.moves = false) (g' : Feed) : Shows (l ++ ms.map (⟨·, g'⟩)) g := by
  induction ms generalizing l f with
  | nil =>
    rw [List.map_nil, List.append_nil]
    exact ⟨hprevious ▸ h.known, hconfig ▸ h.handed⟩
  | cons a ms ih =>
    obtain ⟨ha, hms⟩ := List.forall_mem_cons.mp hms
    have hone : Shows (l ++ [⟨a, g'⟩]) g := by
      refine h.snoc hconfig (fun e out he => ?_) fun id => ?_
      · obtain rfl : a = .settled e out := he
        cases ha
      · rw [hprevious]
        cases a <;> first | rfl | cases ha
    have hall := ih hone rfl rfl hms
    rwa [List.append_assoc, List.singleton_append] at hall

theorem settle (h : Shows l f) (e : Event) :
    Shows (l ++ [⟨.settled e (f.settle e).2, (f.settle e).1⟩]) (f.settle e).1 := by
  obtain ⟨hhanded, hknown⟩ := settle_handed f e
  refine h.snoc (settle_config f e) (fun x out hx => ?_) hknown
  cases hx
  exact hhanded

theorem ended (h : Shows l f) (hconfig : g.config = f.config) (hprevious : g.previous = ∅) :
    Shows (l ++ [⟨.ended, g⟩]) g :=
  h.snoc hconfig (by simp) fun id => by simp [hprevious, Mark.isEnd]

theorem moves_lost (es : List Event) : ∀ a ∈ es.map Mark.lost, a.moves = false := by
  simp [Mark.moves]

theorem act (h : Shows l f) (hs : Act f ms g) : Shows (l ++ ms.map (⟨·, g⟩)) g := by
  have hconfig := hs.config
  cases hs with
  | receive | blank | covered | gap | exhausted | horizon =>
    refine h.still hconfig rfl ?_ _
    simp [Mark.moves]
  | bulk =>
    refine h.still hconfig rfl ?_ _
    exact List.forall_mem_cons.mpr ⟨rfl, moves_lost _⟩
  | hangUp =>
    obtain ⟨w, hw⟩ := hangUp_eq f
    refine h.still hconfig ?_ (List.forall_mem_nil _) _
    rw [hw]
  | disconnect | attach => exact h.ended hconfig rfl
  | @pop x r =>
    have hr : Shows l { f with queue := r } := ⟨h.known, h.handed⟩
    exact hr.settle x
  | @single line r x =>
    have hone : ∀ a ∈ [Mark.line line (some (.admitted x))], a.moves = false := by simp [Mark.moves]
    have hpass : Shows l ({ f with lines := r }.pass x) := ⟨h.known, h.handed⟩
    have hline := hpass.still rfl rfl hone (({ f with lines := r }.pass x).settle x).1
    have hall := hline.settle x
    rwa [List.append_assoc] at hall

theorem steps (h : f.previous = ∅) (hs : Steps c f l g) : Shows l g := by
  induction hs with
  | refl => exact ⟨by simp [h, Timeline.latest], by simp⟩
  | snoc _ hstep ih =>
    have hconfig := hstep.config
    cases hstep with
    | act _ hact => exact ih.act hact
    | tick =>
      refine ih.still hconfig rfl ?_ _
      exact List.forall_mem_nil _
    | release =>
      refine ih.still hconfig rfl ?_ _
      intro a ha
      rcases mem_releaseMarks ha with ⟨_, rfl⟩ | ⟨_, rfl⟩ <;> rfl

end Shows

/-! ## How far a record has unfolded -/

/-- Of the events `es` that came when there was room for `room`, the first `k` are worked off, in order, and
those about hosts handed over; the next `m` are still queued, and those behind are cut. None was cut but for
want of room, and later only because of something that was believed. -/
structure Unfolded (room : Nat) (es : List Event) (ms : List Mark) (k m : Nat) : Prop where
  within : k + m ≤ min es.length room
  worked : ms.filterMap Mark.worked? = es.take k
  plain : (ms.filterMap Mark.delivered?).filter (·.port?.isNone) = (es.take k).filter (·.port?.isNone)
  cut : (ms.filterMap Mark.cut?).Perm (es.drop (k + m))
  undisturbed : ms.filterMap Mark.fired? = [] → k + m = min es.length room

/-- The events that are still queued stand behind some that were believed, the latest first. -/
structure Queued (es : List Event) (ms : List Mark) (f : Feed) (ahead : List Event) (k m : Nat) : Prop
    extends Unfolded f.config.capacity es ms k m where
  queue : f.queue = ahead ++ (es.drop k).take m
  believed : ahead.Sublist (ms.filterMap Mark.fired?).reverse
  ripe : ∀ x ∈ ahead, ∃ id, x.Ripe id

/-- What marks say of the queue. -/
structure Tells (ms : List Mark) (worked plain fired cut : List Event) : Prop where
  worked : ms.filterMap Mark.worked? = worked
  plain : (ms.filterMap Mark.delivered?).filter (·.port?.isNone) = plain
  fired : ms.filterMap Mark.fired? = fired
  cut : ms.filterMap Mark.cut? = cut

section Tells

theorem tells_lost (q : List Event) : Tells (q.map .lost) [] [] [] (q.filter (·.debounced ≠ some true)) := by
  induction q with
  | nil => exact ⟨rfl, rfl, rfl, rfl⟩
  | cons y r ih =>
    refine ⟨ih.worked, ih.plain, ih.fired, ?_⟩
    rw [List.map_cons, List.filterMap_cons, ih.cut]
    by_cases hy : y.debounced = some true <;> simp [Mark.cut?, hy]

/-- What is worked off that nobody has looked at, and handed over unless it is about a port. -/
theorem tells_settle_raw (f : Feed) (hraw : e.debounced ≠ some true) :
    Tells [.settled e (f.settle e).2] [e] ([e].filter (·.port?.isNone)) [] [] := by
  have hsettles := settles f e
  generalize f.settle e = r at *
  refine ⟨by simp [Mark.worked?, hraw], ?_, rfl, rfl⟩
  cases hsettles with
  | other hport => simp [Mark.delivered?, hport]
  | believed _ hd => exact absurd hd hraw
  | passed hport =>
    have hport' : e.believed.port? = _ := hport
    unfold dedupe
    split <;> simp [Mark.delivered?, hport, hport']
  | held hport => simp [Mark.delivered?, hport]

/-- What was held is not worked off as one of the events. -/
theorem tells_settle_ripe (f : Feed) {id : PortId} (hripe : e.Ripe id) :
    Tells [.settled e (f.settle e).2] [] [] [] [] := by
  have hsettles := settles f e
  generalize f.settle e = r at *
  refine ⟨by simp [Mark.worked?, hripe.1], ?_, rfl, rfl⟩
  cases hsettles with
  | other hport => simp [hripe.2] at hport
  | believed hport =>
    unfold dedupe
    split <;> simp [Mark.delivered?, hport]
  | passed _ hraw | held _ hraw => exact absurd hripe.1 hraw

/-- What is believed goes to the head of the queue, and what it pushes out was at the tail. -/
theorem tells_release {n : Nat} (hn : f.config.capacity = n + 1) (x : Held) :
    Tells (f.releaseMarks x) [] [] [x.believed] ((f.queue.drop n).filter (·.debounced ≠ some true)) := by
  have hlost := tells_lost (f.queue.drop n)
  rw [releaseMarks_eq hn]
  exact ⟨hlost.worked, hlost.plain, congrArg (x.believed :: ·) hlost.fired, hlost.cut⟩

theorem tells_release_none (hzero : f.config.capacity = 0) {x : Held} (hx : x.event.Ripe x.id)
    (hqueue : f.queue = []) : Tells (f.releaseMarks x) [] [] [] [] := by
  have hlost := tells_lost [x.believed]
  have hmarks : f.releaseMarks x = [.lost x.believed] := by
    simp [releaseMarks, overflow, release, push, hzero, hqueue]
  have hripe : x.believed.debounced = some true := hx.1
  rw [hmarks]
  exact ⟨hlost.worked, hlost.plain, hlost.fired, by simp [Mark.cut?, hripe]⟩

end Tells

/-! ## One step -/

namespace Unfolded

variable {ms' : List Mark}

theorem idle (h : Unfolded room es ms k m) (ht : Tells ms' [] [] [] []) : Unfolded room es (ms ++ ms') k m where
  within := h.within
  worked := by rw [List.filterMap_append, ht.worked, List.append_nil, h.worked]
  plain := by rw [List.filterMap_append, List.filter_append, ht.plain, List.append_nil, h.plain]
  cut := by
    rw [List.filterMap_append, ht.cut, List.append_nil]
    exact h.cut
  undisturbed hnone := by
    rw [List.filterMap_append, ht.fired, List.append_nil] at hnone
    exact h.undisturbed hnone

/-- The next event is worked off. -/
theorem work (h : Unfolded room es ms k (m + 1)) {x : Event} {r : List Event} (hnext : es.drop k = x :: r)
    (ht : Tells ms' [x] ([x].filter (·.port?.isNone)) [] []) : Unfolded room es (ms ++ ms') (k + 1) m := by
  have htake : es.take (k + 1) = es.take k ++ [x] := by
    rw [List.take_add, hnext]
    rfl
  have hsame : k + 1 + m = k + (m + 1) := by omega
  exact
    { within := hsame ▸ h.within
      worked := by rw [List.filterMap_append, ht.worked, h.worked, htake]
      plain := by rw [List.filterMap_append, List.filter_append, ht.plain, h.plain, htake, List.filter_append]
      cut := by
        rw [List.filterMap_append, ht.cut, List.append_nil, hsame]
        exact h.cut
      undisturbed := fun hnone => by
        rw [List.filterMap_append, ht.fired, List.append_nil] at hnone
        rw [hsame]
        exact h.undisturbed hnone }

/-- Something is believed, and at most `j` of the events stay in the queue. -/
theorem believe (h : Unfolded room es ms k m) {x : Event} {j : Nat}
    (ht : Tells ms' [] [] [x] (((es.drop k).take m).drop j)) : Unfolded room es (ms ++ ms') k (min j m) where
  within := Nat.le_trans (by omega) h.within
  worked := by rw [List.filterMap_append, ht.worked, List.append_nil, h.worked]
  plain := by rw [List.filterMap_append, List.filter_append, ht.plain, List.append_nil, h.plain]
  cut := by
    have hlength : m ≤ (es.drop k).length := by
      have hwithin := h.within
      rw [List.length_drop]
      omega
    have htail : ((es.drop k).take m).drop j ++ es.drop (k + m) = es.drop (k + min j m) := by
      rw [← List.drop_drop, ← List.drop_drop]
      generalize es.drop k = q at *
      by_cases hj : j ≤ m
      · have hroom : j ≤ (q.take m).length := by
          rw [List.length_take]
          omega
        rw [Nat.min_eq_left hj, ← List.drop_append_of_le_length hroom, List.take_append_drop]
      · have hover : (q.take m).length ≤ j := by
          rw [List.length_take]
          omega
        rw [Nat.min_eq_right (Nat.le_of_not_le hj), List.drop_of_length_le hover, List.nil_append]
    rw [List.filterMap_append, ht.cut, ← htail]
    exact (h.cut.append_right _).trans List.perm_append_comm
  undisturbed hnone := by
    rw [List.filterMap_append, ht.fired] at hnone
    simp at hnone

end Unfolded

namespace Queued

variable {ahead : List Event} {ms' : List Mark}

theorem idle (h : Queued es ms f ahead k m) (ht : Tells ms' [] [] [] []) (hconfig : g.config = f.config)
    (hqueue : g.queue = f.queue) : Queued es (ms ++ ms') g ahead k m where
  toUnfolded := by
    rw [hconfig]
    exact h.toUnfolded.idle ht
  queue := hqueue.trans h.queue
  believed := by
    rw [List.filterMap_append, ht.fired, List.append_nil]
    exact h.believed
  ripe := h.ripe

/-- An event comes up from the queue. -/
theorem pop (h : Queued es ms f ahead k m) (hraw : Raw es) {x : Event} {r : List Event}
    (hqueue : f.queue = x :: r) :
    ∃ ahead k m, Queued es (ms ++ [.settled x ({ f with queue := r }.settle x).2])
      ({ f with queue := r }.settle x).1 ahead k m := by
  have hrest := (settle_same { f with queue := r } x).2
  have hconfig := settle_config { f with queue := r } x
  have hsplit := h.queue
  rw [hqueue] at hsplit
  -- what was believed comes up first, and then the next of the events
  cases ahead with
  | cons y rest =>
    obtain ⟨rfl, hr⟩ := List.cons.inj hsplit
    obtain ⟨id, hripe⟩ := h.ripe x List.mem_cons_self
    have ht := tells_settle_ripe { f with queue := r } hripe
    refine ⟨rest, k, m, { toUnfolded := ?_, queue := hrest.trans hr, believed := ?_, ripe := ?_ }⟩
    · rw [hconfig]
      exact h.toUnfolded.idle ht
    · rw [List.filterMap_append, ht.fired, List.append_nil]
      exact (List.sublist_cons_self x rest).trans h.believed
    · exact fun y hy => h.ripe y (List.mem_cons_of_mem _ hy)
  | nil =>
    cases m with
    | zero => simp at hsplit
    | succ m =>
      cases hdrop : es.drop k with
      | nil => simp [hdrop] at hsplit
      | cons y q =>
        rw [List.nil_append, hdrop, List.take_succ_cons] at hsplit
        obtain ⟨rfl, hr⟩ := List.cons.inj hsplit
        have hx : x.debounced ≠ some true :=
          hraw x (List.mem_of_mem_drop (hdrop ▸ List.mem_cons_self))
        have hnext : es.drop (k + 1) = q := by rw [← List.drop_drop, hdrop, List.drop_one, List.tail_cons]
        refine ⟨[], k + 1, m,
          { toUnfolded := ?_, queue := ?_, believed := List.nil_sublist _, ripe := by simp }⟩
        · rw [hconfig]
          exact h.toUnfolded.work hdrop (tells_settle_raw _ hx)
        · rw [hnext]
          exact hrest.trans hr

/-- Something is believed. -/
theorem release (h : Queued es ms f ahead k m) (hraw : Raw es) (hf : f.Stocked) {x : Held}
    {before after : List Held} (hheld : f.held = before ++ x :: after) :
    ∃ ahead k m, Queued es (ms ++ f.releaseMarks x) ({ f with held := before ++ after }.release x) ahead k m := by
  have hx : x.event.Ripe x.id := hf.held x (by simp [hheld])
  cases hcap : f.config.capacity with
  | zero =>
    -- without any room the queue is empty and stays so
    have hnil : f.queue = [] := List.eq_nil_of_length_eq_zero (Nat.le_zero.mp (hcap ▸ hf.bound))
    refine ⟨ahead, k, m, h.idle (tells_release_none hcap hx hnil) rfl ?_⟩
    simp [Feed.release, push, hcap, hnil]
  | succ n =>
    have hqueue := queue_release (f := { f with held := before ++ after }) hcap x
    have ht := tells_release hcap x
    have hdrop : (f.queue.drop n).filter (·.debounced ≠ some true) =
        ((es.drop k).take m).drop (n - ahead.length) := by
      rw [h.queue, List.drop_append, List.filter_append]
      have hahead : (ahead.drop n).filter (·.debounced ≠ some true) = [] := by
        refine List.filter_eq_nil_iff.mpr fun y hy => ?_
        obtain ⟨id, hripe⟩ := h.ripe y (List.mem_of_mem_drop hy)
        simp [hripe.1]
      rw [hahead, List.nil_append]
      refine List.filter_eq_self.mpr fun y hy => ?_
      simpa using hraw y (List.mem_of_mem_drop (List.mem_of_mem_take (List.mem_of_mem_drop hy)))
    rw [hdrop] at ht
    refine ⟨x.believed :: ahead.take n, k, min (n - ahead.length) m,
      { toUnfolded := h.toUnfolded.believe ht, queue := ?_, believed := ?_, ripe := ?_ }⟩
    · rw [hqueue]
      show _ :: f.queue.take n = _
      rw [h.queue, List.take_append, List.take_take]
      rfl
    · rw [List.filterMap_append, ht.fired, List.reverse_append]
      exact ((List.take_sublist n ahead).trans h.believed).cons_cons _
    · refine List.forall_mem_cons.mpr ⟨⟨x.id, hx⟩, fun y hy => h.ripe y (List.mem_of_mem_take hy)⟩

theorem step (h : Queued es ms f ahead k m) (hraw : Raw es) (hf : f.Stocked) (hs : Step c f ms' g)
    (honward : ∀ a ∈ ms', a.closes = false) : ∃ ahead k m, Queued es (ms ++ ms') g ahead k m := by
  cases hs with
  | release hheld => exact h.release hraw hf hheld
  | tick => exact ⟨ahead, k, m, h.idle ⟨rfl, rfl, rfl, rfl⟩ rfl rfl⟩
  | act _ hact =>
    have hconfig := hact.config
    cases hact with
    | pop hqueue => exact h.pop hraw hqueue
    | receive | exhausted | horizon => exact ⟨ahead, k, m, h.idle ⟨rfl, rfl, rfl, rfl⟩ hconfig rfl⟩
    | hangUp =>
      obtain ⟨w, hw⟩ := hangUp_eq f
      refine ⟨ahead, k, m, h.idle ⟨rfl, rfl, rfl, rfl⟩ hconfig ?_⟩
      rw [hw]
    | blank | covered | gap | bulk | single | disconnect | attach => simp [Mark.closes] at honward

/-- A record is let in, and what there is no room for is cut. -/
theorem start (hq : f.queue = []) (hraw : Raw es) :
    Queued es (f.overflow es) (f.push es) [] 0 (min es.length f.config.capacity) := by
  have ht := tells_lost ((es ++ f.queue).drop f.config.capacity)
  have hall : (es.drop f.config.capacity).filter (·.debounced ≠ some true) = es.drop f.config.capacity :=
    List.filter_eq_self.mpr fun x hx => by simpa using hraw x (List.mem_of_mem_drop hx)
  rw [← overflow, hq, List.append_nil, hall] at ht
  have hdrop : es.drop (min es.length f.config.capacity) = es.drop f.config.capacity := by
    rcases Nat.le_total es.length f.config.capacity with hle | hle
    · rw [Nat.min_eq_left hle, List.drop_length, List.drop_of_length_le hle]
    · rw [Nat.min_eq_right hle]
  exact
    { within := Nat.le_of_eq (Nat.zero_add _)
      worked := ht.worked
      plain := ht.plain
      cut := by rw [ht.cut, Nat.zero_add, hdrop]
      undisturbed := fun _ => Nat.zero_add _
      queue := by
        show (es ++ f.queue).take f.config.capacity = es.take _
        rw [hq, List.append_nil, Nat.min_comm, List.take_eq_take_min]
      believed := List.nil_sublist _
      ripe := by simp }

end Queued

/-! ## Stretches of a run -/

/-- What closes a stretch is the first that happens in its step, and nothing is queued then unless the
session ends. -/
theorem Step.closes {a : Mark} {pre post : List Mark} (hs : Step c f (pre ++ a :: post) g)
    (ha : a.closes = true) : pre = [] ∧ (f.queue = [] ∨ a = .ended) := by
  have hmem : a ∈ pre ++ a :: post := List.mem_append_right pre List.mem_cons_self
  generalize hms : pre ++ a :: post = ms at hs hmem
  have hone (x : Mark) (r : List Mark) (hms : pre ++ a :: post = x :: r) (hr : ∀ y ∈ r, y.closes = false) :
      pre = [] ∧ a = x := by
    cases pre with
    | nil =>
      obtain ⟨rfl, -⟩ := List.cons.inj hms
      exact ⟨rfl, rfl⟩
    | cons y pre =>
      obtain ⟨-, rfl⟩ := List.cons.inj hms
      exact absurd ha (by rw [hr a (by simp)]; decide)
  cases hs with
  | tick => cases hmem
  | release =>
    rcases mem_releaseMarks hmem with ⟨_, rfl⟩ | ⟨_, rfl⟩ <;> cases ha
  | act _ hact =>
    cases hact with
    | hangUp => cases hmem
    | receive | pop | exhausted | horizon =>
      rw [List.mem_singleton.mp hmem] at ha
      cases ha
    | blank hq | covered hq | gap hq => exact ⟨(hone _ _ hms (List.forall_mem_nil _)).1, .inl hq⟩
    | single hq => exact ⟨(hone _ _ hms (by simp [Mark.closes])).1, .inl hq⟩
    | bulk hq =>
      refine ⟨(hone _ _ hms fun y hy => ?_).1, .inl hq⟩
      obtain ⟨_, rfl⟩ := mem_overflow hy
      rfl
    | disconnect | attach =>
      obtain ⟨hpre, rfl⟩ := hone _ _ hms (List.forall_mem_nil _)
      exact ⟨hpre, .inr rfl⟩

/-- Moments of one step, split at one of them. -/
theorem split_step (pre : Timeline) {post : Timeline} {x : Moment} (h : ms.map (⟨·, g⟩) = pre ++ x :: post) :
    ∃ pre' post', ms = pre' ++ x.mark :: post' ∧ pre = pre'.map (⟨·, g⟩) ∧ x.after = g ∧
      post = post'.map (⟨·, g⟩) := by
  obtain ⟨pre', rest, rfl, rfl, hrest⟩ := List.map_eq_append_iff.mp h
  obtain ⟨a, post', rfl, rfl, rfl⟩ := List.map_eq_cons_iff.mp hrest
  exact ⟨pre', post', rfl, rfl, rfl, rfl⟩

/-- Before a stretch is closed there was a feed, with nothing queued unless the end of the session
closes it. -/
theorem Steps.until {x : Moment} {pre post : Timeline} (hs : Steps c f (pre ++ x :: post) g)
    (hx : x.mark.closes = true) : ∃ g', Steps c f pre g' ∧ (g'.queue = [] ∨ x.mark = .ended) := by
  generalize hl : pre ++ x :: post = l at hs
  induction hs generalizing post with
  | refl => simp at hl
  | @snoc h g' l ms hsteps hstep ih =>
    -- it is either in the last step, and then the first of it, or before
    rcases List.append_eq_append_iff.mp hl.symm with ⟨a, rfl, hms⟩ | ⟨a, rfl, hms⟩
    · obtain ⟨pre', post', rfl, rfl, -, -⟩ := split_step _ hms
      obtain ⟨rfl, hfirst⟩ := hstep.closes hx
      exact ⟨h, by simpa using hsteps, hfirst⟩
    · cases a with
      | nil =>
        obtain ⟨pre', post', rfl, hpre, -, -⟩ := split_step [] hms.symm
        obtain ⟨rfl, hfirst⟩ := hstep.closes hx
        exact ⟨h, by simpa using hsteps, hfirst⟩
      | cons y a =>
        obtain ⟨rfl, -⟩ := List.cons.inj hms
        exact ih rfl

/-- A record about many is let in. -/
theorem Step.opens {line : List UInt8} {post : List Mark}
    (hs : Step c f (.line line (some (.admitted e)) :: post) g) (hparts : parts? e = some es) :
    ∃ k m, Queued es post g [] k m := by
  generalize hms : Mark.line line (some (.admitted e)) :: post = ms at hs
  cases hs with
  | tick => cases hms
  | release =>
    have hmem : Mark.line line (some (.admitted e)) ∈ f.releaseMarks _ := hms ▸ List.mem_cons_self
    rcases mem_releaseMarks hmem with ⟨_, heq⟩ | ⟨_, heq⟩ <;> cases heq
  | act _ hact =>
    cases hact with
    | @bulk _ r _ es' hq _ _ _ hparts' =>
      cases hms
      cases hparts.symm.trans hparts'
      exact ⟨0, _, Queued.start (f := { f with lines := r }.pass e) hq (raw_parts hparts)⟩
    | single _ _ _ _ hnone =>
      cases hms
      rw [hparts] at hnone
      cases hnone
    | _ => cases hms

/-- While a stretch goes on, the events of its record unfold. -/
theorem Steps.queued (hs : Steps c f l g) (hf : f.Stocked) (hparts : parts? e = some es)
    {before : Timeline} {line : List UInt8} {g' : Feed}
    (hl : l = before ++ ⟨.line line (some (.admitted e)), g'⟩ :: during)
    (honward : ∀ x ∈ during, x.mark.closes = false) : ∃ ahead k m, Queued es during.marks g ahead k m := by
  induction hs generalizing during with
  | refl => simp at hl
  | @snoc h g'' l ms hsteps hstep ih =>
    -- the record is let in by the last step, or was before that
    rcases List.append_eq_append_iff.mp hl with ⟨a, rfl, hms⟩ | ⟨a, rfl, hms⟩
    · obtain ⟨pre', post', rfl, -, -, rfl⟩ := split_step _ hms
      obtain ⟨rfl, -⟩ := hstep.closes rfl
      obtain ⟨k, m, hqueued⟩ := hstep.opens hparts
      rw [Timeline.marks_at]
      exact ⟨[], k, m, hqueued⟩
    · cases a with
      | nil =>
        obtain ⟨pre', post', rfl, hpre, -, rfl⟩ := split_step [] hms.symm
        obtain ⟨rfl, -⟩ := hstep.closes rfl
        obtain ⟨k, m, hqueued⟩ := hstep.opens hparts
        rw [Timeline.marks_at]
        exact ⟨[], k, m, hqueued⟩
      | cons y a =>
        obtain ⟨rfl, hduring⟩ := List.cons.inj hms
        obtain rfl : during = a ++ ms.map (⟨·, g''⟩) := hduring
        obtain ⟨hleft, hright⟩ := List.forall_mem_append.mp honward
        obtain ⟨ahead, k, n, hqueued⟩ := ih rfl hleft
        rw [Timeline.marks_append, Timeline.marks_at]
        exact hqueued.step (raw_parts hparts) (hf.steps hsteps).1 hstep fun b hb =>
          hright ⟨b, g''⟩ (List.mem_map_of_mem hb)

/-- No line is looked at while anything is queued that can be handed over. -/
theorem poll_lines (h : f.poll.1.lines ≠ f.lines) : (f.drain f.queue).2 = none := by
  have hlines := drain_lines f f.queue
  unfold poll at h
  cases hdrain : f.drain f.queue with
  | mk g o =>
    cases o with
    | none => rfl
    | some x =>
      rw [hdrain] at h hlines
      exact absurd hlines h

section Small

/-- A feed that has room for two. -/
def narrowFeed : FeedConfig := { FeedConfig.usual "events.sock" with capacity := 2 }

/-- Two ports go down, three others come up, and the downs are believed while these are asked for. -/
def crowdedTurns : List Turn :=
  [ .receive (framed [smallRecord "\"PORTS_STATUS\":\x7b\"8\":false,\"9\":false\x7d",
      smallRecord "\"PORTS_STATUS\":\x7b\"2\":true,\"1\":true,\"3\":true\x7d"]),
    .poll, .sleep 6000, .poll, .poll, .poll,
    .receive (framed [smallRecord "\"L2_LEARNED_MACS\":[]"]), .poll ]

/-- Is this a record without a number of the states of these ports, and of nothing before that? -/
def isReport (ports : Table UInt32 Bool) (e : Event) : Bool :=
  e.id = none && e.dpId.isSome && e.portChange = none && e.portsStatus = some ports

theorem bulk_of_isReport {ports : Table UInt32 Bool} (h : isReport ports e = true) :
    e.id = none ∧ e.Bulk (ports.toList.map fun (p, up) => e.ofPort p up) := by
  simp only [isReport, Bool.and_eq_true, decide_eq_true_eq] at h
  obtain ⟨⟨⟨hid, hd⟩, hport⟩, hports⟩ := h
  obtain ⟨d, hd⟩ := Option.isSome_iff_exists.mp hd
  exact ⟨hid, .ports hd hport hports⟩

/-- One port is handed over as it came, one is cut for want of room, and one by what was believed. -/
example : ((fresh narrowFeed).deliveries (.attach :: crowdedTurns)).filterMap (·.port?) =
    [(⟨1, 1⟩, true), (⟨1, 9⟩, false), (⟨1, 8⟩, false)] := by
  decide +kernel

end Small
end Feed
end Fabric
