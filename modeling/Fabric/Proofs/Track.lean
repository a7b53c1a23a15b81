import Fabric.Proofs.Steps

/-! One port in a timeline. What matters of a port is what was delivered of it last, what was
heard of it last, what of it is held and until when, and whether a held down has been believed
since (`Track`). A timeline that a feed makes fits these at every moment (`Fits`): only what is
held comes to be believed, and that when it is due, an up is delivered at once, and a down only
after it was believed. The feed knows as much of the port as its track tells (`Tallies`). -/

namespace Fabric

open Feed

/-- What a timeline tells of a port. -/
structure Track where
  /-- The state that was delivered last. -/
  shown : Option Bool
  /-- The state that was heard last. -/
  heard : Option Bool
  /-- The down that is held, and when it is due. -/
  timer : Option (Instant × Event)
  /-- The down heard last was believed. -/
  fired : Bool

def Track.fresh : Track := ⟨none, none, none, false⟩

namespace Track

/-- News of a port, at the time, with downs held for `w`. -/
def hear (w : Nat) (id : PortId) (k : Track) (t : Instant) (e : Event) : Track :=
  match e.newsOf? id with
  | some up =>
    { k with
      heard := some up
      timer := if up = true ∨ w = 0 then none else some (t + w, e.believed)
      fired := false }
  | none => k

/-- A moment more. -/
def note (w : Nat) (id : PortId) (k : Track) (m : Moment) : Track :=
  match m.mark with
  | .settled e out => { k.hear w id m.time e with shown := (out.bind (·.upOf? id)).or k.shown }
  | .believed x _ => if x = id then { k with timer := none, fired := true } else k
  | .ended => fresh
  | .received _ | .line _ _ | .exhausted _ | .lost _ | .horizon _ => k

def notes (w : Nat) (id : PortId) (k : Track) (l : Timeline) : Track := l.foldl (note w id) k

variable {w : Nat} {id : PortId} {k : Track} {m : Moment} {l r : Timeline}

theorem notes_append (w : Nat) (id : PortId) (k : Track) (l r : Timeline) :
    k.notes w id (l ++ r) = (k.notes w id l).notes w id r :=
  List.foldl_append

theorem note_shown (w : Nat) (id : PortId) (k : Track) (m : Moment) :
    (k.note w id m).shown = if m.mark.isEnd then none else (m.mark.shown? id).or k.shown := by
  obtain ⟨a, g⟩ := m
  cases a with
  | believed x => by_cases hx : x = id <;> simp [note, hx, Mark.isEnd, Mark.shown?, Mark.delivered?]
  | settled | received | line | exhausted | lost | horizon | ended => rfl

theorem note_heard (w : Nat) (id : PortId) (k : Track) (m : Moment) :
    (k.note w id m).heard = if m.mark.isEnd then none else (m.mark.heard? id).or k.heard := by
  obtain ⟨a, g⟩ := m
  cases a with
  | settled e =>
    show (k.hear w id g.now e).heard = (e.newsOf? id).or k.heard
    unfold hear
    cases e.newsOf? id <;> rfl
  | believed x => by_cases hx : x = id <;> simp [note, hx, Mark.isEnd, Mark.heard?]
  | received | line | exhausted | lost | horizon | ended => rfl

theorem shown_fresh_notes (w : Nat) (id : PortId) (l : Timeline) :
    (fresh.notes w id l).shown = l.latest (Mark.shown? id) :=
  (List.foldl_hom Track.shown fun k m => (note_shown w id k m).symm).symm

theorem heard_fresh_notes (w : Nat) (id : PortId) (l : Timeline) :
    (fresh.notes w id l).heard = l.latest (Mark.heard? id) :=
  (List.foldl_hom Track.heard fun k m => (note_heard w id k m).symm).symm

/-- That the moment fits what came before. -/
structure Fit (w : Nat) (id : PortId) (k : Track) (m : Moment) : Prop where
  believed : ∀ x, m.mark = .believed id x →
    (∃ e, k.timer = some (m.time, e) ∧ x = { e with time := seconds m.time }) ∧
      m.after.queue.head? = some x
  waiting : ∀ d e, k.timer = some (d, e) → m.time ≤ d ∧ (m.mark.supersedes id = true → m.time < d)
  up : ∀ e out, m.mark = .settled e out → e.newsOf? id = some true →
    out = if k.shown = some true then none else some e.believed
  shown : ∀ up, m.mark.shown? id = some up → k.shown ≠ some up ∧ (up = false → 0 < w → k.fired = true)

/-- What is held or was believed is a down that was heard. -/
def Founded (k : Track) : Prop := k.timer ≠ none ∨ k.fired = true → k.heard = some false

theorem Founded.hear (hk : k.Founded) (w : Nat) (t : Instant) (e : Event) : (k.hear w id t e).Founded := by
  unfold Track.hear
  cases e.newsOf? id with
  | none => exact hk
  | some up =>
    by_cases hnow : up = true ∨ w = 0
    · simp [Founded, hnow]
    · simp [Founded, Bool.not_eq_true _ ▸ (not_or.mp hnow).1]

theorem Fit.founded (h : Fit w id k m) (hk : k.Founded) : (k.note w id m).Founded := by
  obtain ⟨a, g⟩ := m
  cases a with
  | settled e => exact hk.hear w g.now e
  | believed x e =>
    by_cases hx : x = id
    · obtain ⟨⟨y, hy, -⟩, -⟩ := h.believed e (by rw [hx])
      have hdown : k.heard = some false := hk (.inl (by simp [hy]))
      simp [note, Founded, hx, hdown]
    · simpa [note, hx] using hk
  | ended => simp [note, Founded, fresh]
  | received | line | exhausted | lost | horizon => exact hk

/-- Every moment fits what came before. -/
def Fits (w : Nat) (id : PortId) : Track → Timeline → Prop
  | _, [] => True
  | k, m :: r => Fit w id k m ∧ Fits w id (k.note w id m) r

theorem Fits.append (h : Fits w id k l) (hr : Fits w id (k.notes w id l) r) : Fits w id k (l ++ r) := by
  induction l generalizing k with
  | nil => exact hr
  | cons m l ih => exact ⟨h.1, ih h.2 hr⟩

theorem Fits.left (h : Fits w id k (l ++ r)) : Fits w id k l := by
  induction l generalizing k with
  | nil => trivial
  | cons m l ih => exact ⟨h.1, ih h.2⟩

theorem Fits.right (h : Fits w id k (l ++ r)) : Fits w id (k.notes w id l) r := by
  induction l generalizing k with
  | nil => exact h
  | cons m l ih => exact ih h.2

theorem Fits.founded (h : Fits w id k l) (hk : k.Founded) : (k.notes w id l).Founded := by
  induction l generalizing k with
  | nil => exact hk
  | cons m l ih => exact ih h.2 (h.1.founded hk)

/-- A mark that is no news of a port and hands nothing over. -/
def Silent (m : Mark) : Prop :=
  (∀ id, m.isBelieved id = false ∧ m.heard? id = none) ∧ m.delivered? = none ∧ m.isEnd = false

theorem note_silent (h : Silent m.mark) (w : Nat) (id : PortId) (k : Track) : k.note w id m = k := by
  obtain ⟨a, g⟩ := m
  obtain ⟨hid, hout, hend⟩ := h
  cases a with
  | settled e out =>
    obtain rfl : out = none := hout
    have hnews : e.newsOf? id = none := (hid id).2
    simp [note, hear, hnews]
  | believed x e => simpa [Mark.isBelieved] using (hid x).1
  | ended => cases hend
  | received | line | exhausted | lost | horizon => rfl

/-- A moment that is no news of the port. -/
theorem Fit.other (hwait : ∀ d e, k.timer = some (d, e) → m.time ≤ d ∧ (m.mark.isEnd = true → m.time < d))
    (hbelieved : m.mark.isBelieved id = false) (hheard : m.mark.heard? id = none)
    (hshown : m.mark.shown? id = none) : Fit w id k m where
  believed x hx := by simp [hx, Mark.isBelieved] at hbelieved
  waiting d e hd := ⟨(hwait d e hd).1, fun hs => (hwait d e hd).2 (by simpa [Mark.supersedes, hheard] using hs)⟩
  up e out he hup := by simp [he, Mark.heard?, hup] at hheard
  shown up hup := by simp [hshown] at hup

theorem fits_silent (w : Nat) (id : PortId) {g : Feed} {ms : List Mark}
    (hwait : ∀ d e, k.timer = some (d, e) → g.now ≤ d) (hms : ∀ a ∈ ms, Silent a) :
    Fits w id k (ms.map (⟨·, g⟩)) ∧ k.notes w id (ms.map (⟨·, g⟩)) = k := by
  induction ms with
  | nil => exact ⟨trivial, rfl⟩
  | cons a ms ih =>
    obtain ⟨ha, hms⟩ := List.forall_mem_cons.mp hms
    have hsame : k.note w id ⟨a, g⟩ = k := note_silent ha w id k
    have hfit : Fit w id k ⟨a, g⟩ := .other (fun d e hd => ⟨hwait d e hd, by simp [ha.2.2]⟩) (ha.1 id).1
      (ha.1 id).2 (by simp [Mark.shown?, ha.2.1])
    rw [List.map_cons]
    refine ⟨⟨hfit, ?_⟩, ?_⟩
    · rw [hsame]
      exact (ih hms).1
    · show (k.note w id ⟨a, g⟩).notes w id _ = k
      rw [hsame]
      exact (ih hms).2

end Track

namespace Event

/-- A down that was held and has been believed. -/
def Ripe (id : PortId) (e : Event) : Prop := e.debounced = some true ∧ e.port? = some (id, false)

theorem Ripe.eq {e : Event} {x y : PortId} (hx : e.Ripe x) (hy : e.Ripe y) : x = y := by
  simpa using hx.2.symm.trans hy.2

theorem upOf?_eq {e : Event} {x : PortId} {up : Bool} (h : e.port? = some (x, up)) (id : PortId) :
    e.upOf? id = if x = id then some up else none := by
  rw [upOf?, h]
  rfl

theorem upOf?_eq_none {e : Event} (h : e.port? = none) (id : PortId) : e.upOf? id = none := by
  rw [upOf?, h]
  rfl

theorem newsOf?_eq {e : Event} (h : e.debounced ≠ some true) (id : PortId) : e.newsOf? id = e.upOf? id :=
  if_neg h

theorem newsOf?_eq_none {e : Event} (h : e.debounced = some true) (id : PortId) : e.newsOf? id = none :=
  if_pos h

end Event

namespace Feed

open Track

variable {id : PortId} {f g : Feed} {k : Track} {l : Timeline} {e : Event}

/-- A queue of what nobody has worked off. -/
def Raw (q : List Event) : Prop := ∀ e ∈ q, e.debounced ≠ some true

/-- A queue in which what was believed stands in front of what nobody has worked off. -/
structure Fronted (q : List Event) : Prop where
  ripe : ∀ e ∈ q, e.debounced = some true → ∃ x, e.Ripe x
  ordered : q.Pairwise fun a b => b.debounced = some true → a.debounced = some true

namespace Fronted

variable {q : List Event} {x : PortId}

theorem of_raw (hraw : Raw q) : Fronted q where
  ripe e he hd := absurd hd (hraw e he)
  ordered := List.pairwise_iff_forall_sublist.mpr fun hsub hb =>
    absurd hb (hraw _ (hsub.subset (by simp)))

theorem tail (h : Fronted (e :: q)) : Fronted q :=
  ⟨(List.forall_mem_cons.mp h.ripe).2, (List.pairwise_cons.mp h.ordered).2⟩

theorem raw_tail (h : Fronted (e :: q)) (hraw : e.debounced ≠ some true) : Raw q :=
  fun y hy hd => hraw ((List.pairwise_cons.mp h.ordered).1 y hy hd)

theorem cons_take (h : Fronted q) (he : e.Ripe x) (n : Nat) : Fronted (e :: q.take n) where
  ripe := List.forall_mem_cons.mpr ⟨fun _ => ⟨x, he⟩, fun y hy => h.ripe y (List.mem_of_mem_take hy)⟩
  ordered := List.pairwise_cons.mpr ⟨fun _ _ _ => he.1, h.ordered.sublist (List.take_sublist n q)⟩

end Fronted

/-- The feed knows of the port what its track tells. -/
structure Tallies (id : PortId) (f : Feed) (k : Track) : Prop where
  shown : f.previous.get? id = k.shown
  timer : ∀ d e, k.timer = some (d, e) ↔ ⟨id, d, e⟩ ∈ f.held
  held : ∀ x ∈ f.held, x.event.Ripe x.id
  once : f.held.Pairwise fun a b => a.id ≠ b.id
  queue : Fronted f.queue
  fired : (∃ e ∈ f.queue, e.Ripe id) → k.fired = true

namespace Tallies

theorem fresh (h : f.previous = ∅) (hq : f.queue = []) (hh : f.held = []) : Tallies id f .fresh where
  shown := by simp [h, Track.fresh]
  timer d e := by simp [hh, Track.fresh]
  held := by simp [hh]
  once := by simp [hh]
  queue := hq ▸ .of_raw (List.forall_mem_nil _)
  fired := by simp [hq]

theorem clear (h : Tallies id f k) (hp : f.Punctual) {d : Instant} {x : Event} (hd : k.timer = some (d, x)) :
    f.now < d :=
  hp.ahead _ ((h.timer d x).mp hd)

theorem waits (h : Tallies id f k) (hp : f.Punctual) (b : Bool) :
    ∀ d x, k.timer = some (d, x) → f.now ≤ d ∧ (b = true → f.now < d) := by
  intro d x hd
  have hclear := h.clear hp hd
  exact ⟨Int.le_of_lt hclear, fun _ => hclear⟩

/-- Nothing but the queue, what is held and what was delivered counts. -/
theorem congr (h : Tallies id f k) (hq : g.queue = f.queue) (hh : g.held = f.held)
    (hp : g.previous = f.previous) : Tallies id g k where
  shown := hp ▸ h.shown
  timer := hh ▸ h.timer
  held := hh ▸ h.held
  once := hh ▸ h.once
  queue := hq ▸ h.queue
  fired := hq ▸ h.fired

/-- With nothing believed in the queue, there is nothing believed in it of this port. -/
theorem not_ripe (hraw : Raw f.queue) : ¬ ∃ e ∈ f.queue, e.Ripe id :=
  fun ⟨e, he, hripe⟩ => hraw e he hripe.1

end Tallies

/-- What happens fits the track, and the feed after it knows what the track tells then. -/
structure Told (w : Nat) (id : PortId) (k : Track) (l : Timeline) (g : Feed) : Prop where
  fits : Fits w id k l
  tallies : Tallies id g (k.notes w id l)

/-! ## One event -/

section Settle
variable {w : Nat} {x : PortId} {up : Bool}

theorem previous_dedupe (f : Feed) (x id : PortId) (up : Bool) (e : Event) :
    (f.dedupe x up e).1.previous.get? id = if x = id then some up else f.previous.get? id := by
  simp [dedupe, eq_comm]

/-- A state is handed over unless it is shown already. -/
theorem upOf?_dedupe (f : Feed) (id : PortId) (hport : e.port? = some (x, up)) :
    (f.dedupe x up e).2.bind (·.upOf? id) =
      if x = id ∧ f.previous.get? id ≠ some up then some up else none := by
  unfold dedupe
  by_cases hx : x = id
  · subst hx
    by_cases hprev : f.previous.get? x = some up <;> simp [hprev, Event.upOf?_eq hport]
  · split <;> simp [hx, Event.upOf?_eq hport]

/-- Whether or not it is handed over, a state is shown from then on. -/
theorem shown_dedupe (f : Feed) (id : PortId) (hport : e.port? = some (x, up)) :
    ((f.dedupe x up e).2.bind (·.upOf? id)).or (f.previous.get? id) =
      (f.dedupe x up e).1.previous.get? id := by
  rw [upOf?_dedupe f id hport, previous_dedupe]
  by_cases hx : x = id
  · by_cases hprev : f.previous.get? id = some up <;> simp [hx, hprev]
  · simp [hx]

/-- Something that was believed comes up. -/
theorem Tallies.pop_ripe (h : Tallies id f k) (hp : f.Punctual) {r : List Event} (hq : f.queue = e :: r)
    (hripe : e.Ripe x) :
    Told w id k [⟨.settled e ({ f with queue := r }.settle e).2, ({ f with queue := r }.settle e).1⟩]
      ({ f with queue := r }.settle e).1 := by
  obtain ⟨hd, hport⟩ := hripe
  have hsettles := settles { f with queue := r } e
  generalize { f with queue := r }.settle e = g at *
  obtain rfl : g = { f with queue := r }.dedupe x false e := by
    cases hsettles with
    | other hnone => simp [hport] at hnone
    | believed hport' =>
      cases hport.symm.trans hport'
      rfl
    | passed _ hraw | held _ hraw => exact absurd hd hraw
  have hnews : e.newsOf? id = none := e.newsOf?_eq_none hd id
  have hup := upOf?_dedupe { f with queue := r } id hport
  have hshown := shown_dedupe { f with queue := r } id hport
  have hprev : f.previous.get? id = k.shown := h.shown
  refine ⟨⟨⟨by simp, fun d y hy => ?_, fun y out heq => ?_, fun v hv => ?_⟩, trivial⟩, ?_⟩
  · exact ⟨Int.le_of_lt (h.clear hp hy), by simp [Mark.supersedes, Mark.heard?, hnews, Mark.isEnd]⟩
  · cases heq
    simp [hnews]
  · replace hv := hup.symm.trans hv
    rw [Option.ite_none_right_eq_some] at hv
    obtain ⟨⟨hx, hne⟩, hv⟩ := hv
    cases hv
    exact ⟨h.shown ▸ hne, fun _ _ => h.fired ⟨e, by simp [hq], hd, hx ▸ hport⟩⟩
  · refine
      { shown := ?_
        timer := ?_
        held := h.held
        once := h.once
        queue := Fronted.tail (hq ▸ h.queue)
        fired := fun hr => ?_ }
    · rw [← hshown]
      show _ = Option.or _ k.shown
      rw [← hprev]
    · show ∀ d y, (k.hear w id f.now e).timer = some (d, y) ↔ _
      rw [hear, hnews]
      exact h.timer
    · show (k.hear w id f.now e).fired = true
      rw [hear, hnews]
      obtain ⟨y, hy, hy'⟩ := hr
      exact h.fired ⟨y, by rw [hq]; exact List.mem_cons_of_mem e hy, hy'⟩

/-- News of a port makes what was held of it void. -/
theorem mem_drop {d : Instant} {y : Event} :
    ⟨id, d, y⟩ ∈ (f.drop x).held ↔ ⟨id, d, y⟩ ∈ f.held ∧ id ≠ x := by
  simp [drop]

/-- News of a port that needs not wait. -/
theorem Tallies.hear_now (h : Tallies id f k) (hp : f.Punctual) (hraw : Raw f.queue)
    (hport : e.port? = some (x, up)) (hd : e.debounced ≠ some true)
    (hnow : up = true ∨ f.config.debounce = 0) :
    Told f.config.debounce id k
      [⟨.settled e ((f.drop x).dedupe x up e.believed).2, ((f.drop x).dedupe x up e.believed).1⟩]
      ((f.drop x).dedupe x up e.believed).1 := by
  have hbelieved : e.believed.port? = some (x, up) := hport
  have hnews : e.newsOf? id = if x = id then some up else none :=
    (e.newsOf?_eq hd id).trans (Event.upOf?_eq hport id)
  have hup := upOf?_dedupe (f.drop x) id hbelieved
  have hshown := shown_dedupe (f.drop x) id hbelieved
  have hprev : (f.drop x).previous.get? id = k.shown := h.shown
  rw [hprev] at hup hshown
  refine ⟨⟨⟨by simp, h.waits hp _, fun y out heq hnewsup => ?_, fun v hv => ?_⟩, trivial⟩, ?_⟩
  · cases heq
    rw [hnews, Option.ite_none_right_eq_some] at hnewsup
    obtain ⟨hx, hv⟩ := hnewsup
    cases hv
    rw [← hprev, hx]
    rfl
  · replace hv := hup.symm.trans hv
    rw [Option.ite_none_right_eq_some] at hv
    obtain ⟨⟨-, hne⟩, hv⟩ := hv
    cases hv
    refine ⟨hne, fun hdown hw => ?_⟩
    -- a down goes through at once only if downs are not held at all
    rcases hnow with htrue | hzero
    · simp [hdown] at htrue
    · exact absurd hzero (Nat.ne_of_gt hw)
  · refine
      { shown := hshown.symm
        timer := fun d y => ?_
        held := fun y hy => h.held y (List.mem_filter.mp hy).1
        once := h.once.filter _
        queue := .of_raw hraw
        fired := fun hr => absurd hr (not_ripe (f := f) hraw) }
    show (k.hear f.config.debounce id f.now e).timer = some (d, y) ↔ ⟨id, d, y⟩ ∈ (f.drop x).held
    rw [mem_drop, ← h.timer, hear, hnews]
    by_cases hx : x = id
    · simp [hx, hnow]
    · simp [hx, Ne.symm hx]

/-- News of a port that has to wait. -/
theorem Tallies.hear_later (h : Tallies id f k) (hp : f.Punctual) (hraw : Raw f.queue)
    (hport : e.port? = some (x, false)) (hd : e.debounced ≠ some true) (hw : f.config.debounce ≠ 0) :
    Told f.config.debounce id k [⟨.settled e none, (f.drop x).hold x e.believed⟩]
      ((f.drop x).hold x e.believed) := by
  have hnews : e.newsOf? id = if x = id then some false else none :=
    (e.newsOf?_eq hd id).trans (Event.upOf?_eq hport id)
  refine ⟨⟨⟨by simp, h.waits hp _, fun y out heq hnewsup => ?_, by simp [Mark.shown?, Mark.delivered?]⟩,
    trivial⟩, ?_⟩
  · cases heq
    rw [hnews, Option.ite_none_right_eq_some] at hnewsup
    cases hnewsup.2
  · refine
      { shown := h.shown
        timer := fun d y => ?_
        held := fun y hy => ?_
        once := ?_
        queue := .of_raw hraw
        fired := fun hr => absurd hr (not_ripe (f := f) hraw) }
    · show (k.hear f.config.debounce id f.now e).timer = some (d, y) ↔
        ⟨id, d, y⟩ ∈ (f.drop x).held ++ [⟨x, f.now + f.config.debounce, e.believed⟩]
      rw [List.mem_append, mem_drop, ← h.timer, hear, hnews]
      by_cases hx : x = id
      · simp [hx, hw, eq_comm]
      · simp [hx, Ne.symm hx]
    · rcases List.mem_append.mp hy with hy | hy
      · exact h.held y (List.mem_filter.mp hy).1
      · rw [List.mem_singleton.mp hy]
        exact ⟨rfl, hport⟩
    · refine List.pairwise_append.mpr ⟨h.once.filter _, List.pairwise_singleton .., fun a ha b hb => ?_⟩
      rw [List.mem_singleton.mp hb]
      simpa using (List.mem_filter.mp ha).2

/-- An event that has not waited. -/
theorem Tallies.hear (h : Tallies id f k) (hp : f.Punctual) (hraw : Raw f.queue)
    (hnews : e.debounced ≠ some true) :
    Told f.config.debounce id k [⟨.settled e (f.settle e).2, (f.settle e).1⟩] (f.settle e).1 := by
  have hsettles := settles f e
  generalize f.settle e = g at *
  cases hsettles with
  | other hport =>
    have hnone := Event.upOf?_eq_none hport id
    have hsame : k.notes f.config.debounce id [⟨.settled e (some e), f⟩] = k := by
      simp [notes, note, Track.hear, e.newsOf?_eq hnews, hnone]
    refine ⟨⟨.other (h.waits hp _) rfl ((e.newsOf?_eq hnews id).trans hnone) hnone, trivial⟩, ?_⟩
    rw [hsame]
    exact h
  | believed _ hd => exact absurd hd hnews
  | passed hport _ hnow => exact h.hear_now hp hraw hport hnews hnow
  | held hport _ hw => exact h.hear_later hp hraw hport hnews hw

end Settle

/-! ## Steps -/

theorem silent_line (line : List UInt8) (r : Option Ruling) : Silent (.line line r) :=
  ⟨fun _ => ⟨rfl, rfl⟩, rfl, rfl⟩

theorem silent_received (bytes : List UInt8) : Silent (.received bytes) := ⟨fun _ => ⟨rfl, rfl⟩, rfl, rfl⟩

theorem silent_exhausted (x : Option Fault) : Silent (.exhausted x) := ⟨fun _ => ⟨rfl, rfl⟩, rfl, rfl⟩

theorem silent_horizon (h : UInt64) : Silent (.horizon h) := ⟨fun _ => ⟨rfl, rfl⟩, rfl, rfl⟩

theorem silent_lost (es : List Event) : ∀ a ∈ es.map Mark.lost, Silent a := by
  intro a ha
  obtain ⟨y, -, rfl⟩ := List.mem_map.mp ha
  exact ⟨fun _ => ⟨rfl, rfl⟩, rfl, rfl⟩

section Release
variable {x : Held} {before after : List Held} {n : Nat}

theorem queue_release (hn : f.config.capacity = n + 1) (x : Held) :
    (f.release x).queue = x.believed :: f.queue.take n := by
  simp [release, push, hn, Held.believed]

theorem releaseMarks_eq (hn : f.config.capacity = n + 1) (x : Held) :
    f.releaseMarks x = .believed x.id x.believed :: (f.queue.drop n).map .lost := by
  rw [releaseMarks, queue_release hn]
  simp [overflow, hn]

theorem note_believed (w : Nat) (id : PortId) (k : Track) (x : Held) (g : Feed) :
    k.note w id ⟨.believed x.id x.believed, g⟩ =
      if x.id = id then { k with timer := none, fired := true } else k := rfl

theorem Tallies.timer_split (h : Tallies id f k) (hheld : f.held = before ++ x :: after) (d : Instant)
    (y : Event) : k.timer = some (d, y) ↔ x = ⟨id, d, y⟩ ∨ ⟨id, d, y⟩ ∈ before ++ after := by
  rw [h.timer, hheld, List.mem_append, List.mem_cons, List.mem_append, eq_comm (a := x)]
  tauto

/-- There is one down less to wait for. -/
theorem Tallies.released (h : Tallies id f k) (hheld : f.held = before ++ x :: after)
    (hn : f.config.capacity = n + 1) :
    Tallies id ({ f with held := before ++ after }.release x)
      (if x.id = id then { k with timer := none, fired := true } else k) := by
  have hripe : x.believed.Ripe x.id := h.held x (by simp [hheld])
  have hqueue := queue_release (f := { f with held := before ++ after }) hn x
  have hmiddle : (x :: (before ++ after)).Pairwise fun a b => a.id ≠ b.id :=
    ((hheld ▸ h.once).perm List.perm_middle fun hne => hne.symm)
  obtain ⟨hne, honce⟩ := List.pairwise_cons.mp hmiddle
  have hheld' : ∀ y ∈ before ++ after, y.event.Ripe y.id := fun y hy =>
    h.held y (hheld ▸ (List.mem_append.mp hy).elim (List.mem_append_left _)
      fun hy => List.mem_append_right _ (List.mem_cons_of_mem x hy))
  by_cases hx : x.id = id
  · rw [if_pos hx]
    exact
      { shown := h.shown
        timer := fun d y => ⟨by simp, fun hy => absurd hx (hne _ hy)⟩
        held := hheld'
        once := honce
        queue := hqueue ▸ h.queue.cons_take hripe n
        fired := fun _ => rfl }
  · rw [if_neg hx]
    refine
      { shown := h.shown
        timer := fun d y => (h.timer_split hheld d y).trans
          ⟨fun hy => hy.resolve_left fun heq => hx (heq ▸ rfl), .inr⟩
        held := hheld'
        once := honce
        queue := hqueue ▸ h.queue.cons_take hripe n
        fired := fun hr => ?_ }
    obtain ⟨y, hy, hy'⟩ := hr
    refine h.fired ⟨y, ?_, hy'⟩
    rw [hqueue] at hy
    rcases List.mem_cons.mp hy with rfl | hy
    · exact absurd (hripe.eq hy') hx
    · exact List.mem_of_mem_take hy

/-- What falls due is believed. -/
theorem Tallies.release (h : Tallies id f k) (hheld : f.held = before ++ x :: after)
    (hfirst : ∀ y ∈ before ++ after, x.due ≤ y.due) (hn : f.config.capacity = n + 1) :
    Told f.config.debounce id k
      ((f.releaseMarks x).map (⟨·, { f with held := before ++ after }.release x⟩))
      ({ f with held := before ++ after }.release x) := by
  have hqueue := queue_release (f := { f with held := before ++ after }) hn x
  have hwait (d : Instant) (y : Event) (hd : k.timer = some (d, y)) : x.due ≤ d := by
    rcases (h.timer_split hheld d y).mp hd with rfl | hr
    · exact Int.le_refl _
    · exact hfirst _ hr
  have hlate : ∀ d y, (k.note f.config.debounce id ⟨.believed x.id x.believed,
      { f with held := before ++ after }.release x⟩).timer = some (d, y) → x.due ≤ d := by
    intro d y hd
    rw [note_believed] at hd
    split at hd
    · cases hd
    · exact hwait d y hd
  obtain ⟨hfits, hsame⟩ := fits_silent f.config.debounce id
    (g := { f with held := before ++ after }.release x) hlate (silent_lost (f.queue.drop n))
  rw [releaseMarks_eq hn, List.map_cons]
  refine ⟨⟨⟨fun y hy => ?_, fun d y hd => ⟨hwait d y hd, ?_⟩, by simp, ?_⟩, hfits⟩, ?_⟩
  · obtain ⟨rfl, rfl⟩ : x.id = id ∧ x.believed = y := by simpa using hy
    exact ⟨⟨x.event, (h.timer_split hheld _ _).mpr (.inl rfl), rfl⟩, by simp [hqueue]⟩
  · simp [Mark.supersedes, Mark.heard?, Mark.isEnd]
  · simp [Mark.shown?, Mark.delivered?]
  · show Tallies id _ (Track.notes _ _ (Track.note _ _ _ _) _)
    rw [hsame, note_believed]
    exact h.released hheld hn

end Release

/-- Only what the feed held comes with the mark of one that was. -/
theorem raw_parts {es : List Event} (hparts : parts? e = some es) : Raw es := by
  intro x hx
  rcases mem_parts hparts hx with ⟨_, _, rfl⟩ | ⟨_, rfl⟩ <;> exact nofun

/-- An event comes up from the queue. -/
theorem Tallies.pop (h : Tallies id f k) (hp : f.Punctual) {r : List Event} (hq : f.queue = e :: r) :
    Told f.config.debounce id k
      [⟨.settled e ({ f with queue := r }.settle e).2, ({ f with queue := r }.settle e).1⟩]
      ({ f with queue := r }.settle e).1 := by
  by_cases hd : e.debounced = some true
  · obtain ⟨x, hripe⟩ := h.queue.ripe e (by simp [hq]) hd
    exact h.pop_ripe hp hq hripe
  · -- nothing behind a raw event was believed
    have hraw : Raw r := Fronted.raw_tail (hq ▸ h.queue) hd
    have hrest : Tallies id { f with queue := r } k :=
      { h with
        queue := .of_raw hraw
        fired := fun hr => absurd hr (not_ripe (f := { f with queue := r }) hraw) }
    exact hrest.hear (f := { f with queue := r }) (hp.congr rfl rfl rfl) hraw hd

/-- Nothing of the port happens. -/
theorem Tallies.quiet (h : Tallies id f k) (hp : f.Punctual) {ms : List Mark} (hms : ∀ a ∈ ms, Silent a)
    (hnow : g.now = f.now) (hg : Tallies id g k) : Told f.config.debounce id k (ms.map (⟨·, g⟩)) g := by
  obtain ⟨hfits, hsame⟩ := fits_silent f.config.debounce id (g := g)
    (fun d e hd => hnow ▸ Int.le_of_lt (h.clear hp hd)) hms
  exact ⟨hfits, by rw [hsame]; exact hg⟩

theorem Told.append {w : Nat} {r : Timeline} (h : Told w id k l f) (hr : Told w id (k.notes w id l) r g) :
    Told w id k (l ++ r) g := by
  refine ⟨h.fits.append hr.fits, ?_⟩
  rw [notes_append]
  exact hr.tallies

/-- A new session knows nothing. -/
theorem Tallies.ended (h : Tallies id f k) (hp : f.Punctual) (hnow : g.now = f.now)
    (hg : Tallies id g .fresh) : Told f.config.debounce id k [⟨.ended, g⟩] g := by
  refine ⟨⟨.other (fun d e hd => ?_) rfl rfl rfl, trivial⟩, hg⟩
  show g.now ≤ d ∧ (_ → g.now < d)
  rw [hnow]
  exact h.waits hp _ d e hd

/-- Whatever happens fits, unless a record poses as one that was held. -/
theorem Tallies.act (h : Tallies id f k) {ms : List Mark} (hp : f.Punctual) (hs : Act f ms g)
    (hraw : ∀ a ∈ ms, a.isPosed = false) :
    Told f.config.debounce id k (ms.map (⟨·, g⟩)) g := by
  cases hs with
  | pop hq => exact h.pop hp hq
  | @single line r e hq _ _ _ _ =>
    have hnews : e.debounced ≠ some true := by simpa [Mark.isPosed] using hraw _ List.mem_cons_self
    have hpass : Tallies id ({ f with lines := r }.pass e) k := h.congr rfl rfl rfl
    have hempty : Raw ({ f with lines := r }.pass e).queue := hq ▸ List.forall_mem_nil _
    have hsilent : ∀ a ∈ [Mark.line line (some (.admitted e))], Silent a := by simpa using silent_line line _
    -- the line is no news, and counts as read at the feed that is left
    have hline : Fits f.config.debounce id k
          [⟨.line line (some (.admitted e)), (({ f with lines := r }.pass e).settle e).1⟩] ∧
        k.notes f.config.debounce id
          [⟨.line line (some (.admitted e)), (({ f with lines := r }.pass e).settle e).1⟩] = k :=
      fits_silent f.config.debounce id (g := (({ f with lines := r }.pass e).settle e).1)
        (fun d x hd => (settle_now _ e).symm ▸ Int.le_of_lt (h.clear hp hd)) hsilent
    have hhear := hpass.hear (hp.congr rfl rfl rfl) hempty hnews
    refine ⟨hline.1.append ?_, ?_⟩
    · rw [hline.2]
      exact hhear.fits
    · exact hhear.tallies
  | @bulk _ _ _ es hq _ _ _ hparts =>
    refine h.quiet hp (List.forall_mem_cons.mpr ⟨silent_line _ _, silent_lost _⟩) rfl ?_
    have hqueue : Raw (f.push es).queue := by
      intro y hy
      have hmem : y ∈ es ++ f.queue := List.mem_of_mem_take hy
      rw [hq, List.append_nil] at hmem
      exact raw_parts hparts y hmem
    exact
      { shown := h.shown
        timer := h.timer
        held := h.held
        once := h.once
        queue := .of_raw hqueue
        fired := fun hr => absurd hr (not_ripe hqueue) }
  | receive => exact h.quiet hp (by simpa using silent_received _) rfl (h.congr rfl rfl rfl)
  | hangUp =>
    obtain ⟨w, hw⟩ := hangUp_eq f
    rw [hw]
    exact h.quiet hp (List.forall_mem_nil _) rfl (h.congr rfl rfl rfl)
  | blank | covered | gap => exact h.quiet hp (by simpa using silent_line _ _) rfl (h.congr rfl rfl rfl)
  | exhausted => exact h.quiet hp (by simpa using silent_exhausted _) rfl h
  | horizon => exact h.quiet hp (by simpa using silent_horizon _) rfl (h.congr rfl rfl rfl)
  | disconnect | attach => exact h.ended hp rfl (.fresh rfl rfl rfl)

/-- So does the time that passes, and what falls due. -/
theorem Tallies.step (h : Tallies id f k) {ms : List Mark} (hs : Step .exact f ms g)
    (hraw : ∀ a ∈ ms, a.isPosed = false) (room : 0 < f.config.capacity) :
    Told f.config.debounce id k (ms.map (⟨·, g⟩)) g := by
  cases hs with
  | act hp hact => exact h.act (hp rfl) hact hraw
  | tick => exact ⟨trivial, h.congr rfl rfl rfl⟩
  | release hheld hdue =>
    obtain ⟨n, hn⟩ := Nat.exists_eq_add_one.mpr room
    exact h.release hheld (hdue rfl).2 hn

/-- A timeline of a feed fits each port all along. -/
theorem Tallies.steps (h : Tallies id f k) (hs : Steps .exact f l g)
    (hraw : ∀ m ∈ l, m.mark.isPosed = false) (room : 0 < f.config.capacity) :
    Told f.config.debounce id k l g := by
  induction hs with
  | refl => exact ⟨trivial, h⟩
  | snoc hbefore hstep ih =>
    obtain ⟨hleft, hright⟩ := List.forall_mem_append.mp hraw
    have htold := ih hleft
    have hconfig := hbefore.config
    have hlast := htold.tallies.step hstep (fun a ha => hright _ (List.mem_map_of_mem ha)) (hconfig ▸ room)
    rw [hconfig] at hlast
    exact htold.append hlast

end Feed
end Fabric
