import Fabric.Proofs.Lines
import Fabric.Proofs.Track

/-! Debouncing, to the millisecond. A port that goes down is believed when it has been down for
the whole of the window, and at that very time it goes to the head of the queue; any news of it before
then, or the end of the session, makes the wait void. Nobody waits for a port that comes up. What counts
for a port is news of this port alone, so that other ports neither hasten nor delay it. -/

namespace Fabric

open Feed Track

/-- A timeline until `now` in which downs of a port are held for `w`. -/
structure Debounced (w : Nat) (id : PortId) (now : Instant) (l : Timeline) : Prop where
  /-- A down is believed when its time is up, just if nothing makes it void before that. -/
  down : ∀ pre (m : Moment) post, l = pre ++ m :: post → m.mark.heard? id = some false →
    ((∃ mid b rest, post = mid ++ b :: rest ∧ b.mark.isBelieved id = true ∧ b.time = m.time + w ∧
        ∀ x ∈ mid, x.mark.heard? id = none) ↔
      m.time + w ≤ now ∧ ∀ x ∈ post, x.time < m.time + w → x.mark.supersedes id = false)
  /-- A down is believed at no other time, once at most, and under the time at which it is. -/
  once : ∀ pre e out (g : Feed) mid x (g' : Feed) post,
    l = pre ++ ⟨.settled e out, g⟩ :: (mid ++ ⟨.believed id x, g'⟩ :: post) → e.newsOf? id = some false →
    (∀ m ∈ mid, m.mark.heard? id = none) →
      g'.now = g.now + w ∧ x = { e.believed with time := seconds g'.now } ∧
        ∀ m ∈ mid, m.mark.isBelieved id = false
  /-- What is believed is in the queue from then on, and in front. -/
  queued : ∀ m ∈ l, ∀ x, m.mark = .believed id x → m.after.queue.head? = some x
  /-- Whatever is believed is a down, the last that was heard of the port. -/
  source : ∀ pre (b : Moment) post, l = pre ++ b :: post → b.mark.isBelieved id = true →
    ∃ pre' m mid, pre = pre' ++ m :: mid ∧ m.mark.heard? id = some false ∧ ∀ x ∈ mid, x.mark.heard? id = none
  /-- A port that comes up is handed over at once, unless it is shown up already. -/
  up : ∀ (pre : Timeline) e out g post, l = pre ++ ⟨.settled e out, g⟩ :: post → e.newsOf? id = some true →
    out = if pre.latest (Mark.shown? id) = some true then none else some e.believed
  /-- Of a port that is up nothing is shown while there is news of it before any of its downs is due. -/
  flaps : ∀ (pre l' post : Timeline), l = pre ++ (l' ++ post) →
    pre.latest (Mark.shown? id) = some true → pre.latest (Mark.heard? id) = some true →
    (∀ m ∈ l', m.mark.isEnd = false) →
    (∀ mid (m : Moment) rest, l' = mid ++ m :: rest → m.mark.heard? id = some false →
      ∃ x ∈ rest, x.time < m.time + w ∧ x.mark.heard? id ≠ none) →
    ∀ m ∈ l', m.mark.shown? id = none

namespace Track

variable {w : Nat} {id : PortId} {k : Track} {m : Moment} {l mid rest : Timeline} {d : Instant}
  {e x y : Event} {out : Option Event} {g : Feed}

/-! ## What is held -/

theorem hear_none (h : e.newsOf? id = none) (t : Instant) : k.hear w id t e = k := by rw [hear, h]

theorem note_timer (hs : m.mark.supersedes id = false) (hb : m.mark.isBelieved id = false) :
    (k.note w id m).timer = k.timer := by
  obtain ⟨a, g⟩ := m
  cases a with
  | settled e out =>
    have hnone : e.newsOf? id = none := by simpa [Mark.supersedes, Mark.heard?, Mark.isEnd] using hs
    show (k.hear w id g.now e).timer = k.timer
    rw [hear_none hnone]
  | believed x e =>
    have hx : x ≠ id := by simpa [Mark.isBelieved] using hb
    simp [note, hx]
  | ended => simp [Mark.supersedes, Mark.isEnd] at hs
  | received | line | exhausted | lost | horizon => rfl

theorem note_fired (hb : m.mark.isBelieved id = false) (hk : k.fired = false) :
    (k.note w id m).fired = false := by
  obtain ⟨a, g⟩ := m
  cases a with
  | settled e out =>
    show (k.hear w id g.now e).fired = false
    unfold hear
    cases e.newsOf? id with
    | none => exact hk
    | some up => rfl
  | believed x e =>
    have hx : x ≠ id := by simpa [Mark.isBelieved] using hb
    simpa [note, hx] using hk
  | ended => rfl
  | received | line | exhausted | lost | horizon => exact hk

/-- What is held after something else than news was held before it. -/
theorem timer_of_note (hm : m.mark.heard? id = none) (hd : (k.note w id m).timer = some (d, y)) :
    k.timer = some (d, y) ∧ m.mark.supersedes id = false ∧ m.mark.isBelieved id = false := by
  have hs : m.mark.supersedes id = false := by
    cases hend : m.mark.isEnd with
    | true => simp [note, Mark.eq_ended hend, fresh] at hd
    | false => simp [Mark.supersedes, hm, hend]
  have hb : m.mark.isBelieved id = false := by
    refine Bool.eq_false_iff.mpr fun hb => ?_
    obtain ⟨x, hx⟩ := Mark.eq_believed hb
    simp [note, hx] at hd
  rw [note_timer hs hb] at hd
  exact ⟨hd, hs, hb⟩

/-- After a down, that is what is held. -/
theorem timer_down (hw : 0 < w) (hnews : e.newsOf? id = some false) (out : Option Event) (g : Feed) :
    (k.note w id ⟨.settled e out, g⟩).timer = some (g.now + w, e.believed) := by
  show (k.hear w id g.now e).timer = _
  simp [hear, hnews, Nat.ne_of_gt hw]

/-- After an up, nothing is held. -/
theorem timer_up (hnews : e.newsOf? id = some true) (out : Option Event) (g : Feed) :
    (k.note w id ⟨.settled e out, g⟩).timer = none := by
  show (k.hear w id g.now e).timer = _
  simp [hear, hnews]

/-- What is believed was held all the time since the last news of the port. -/
theorem Fits.source (h : Fits w id k (mid ++ ⟨.believed id x, g⟩ :: rest))
    (hmid : ∀ m ∈ mid, m.mark.heard? id = none) :
    (∃ e, k.timer = some (g.now, e) ∧ x = { e with time := seconds g.now }) ∧
      ∀ m ∈ mid, m.mark.supersedes id = false ∧ m.mark.isBelieved id = false := by
  induction mid generalizing k with
  | nil =>
    obtain ⟨⟨e, he, hx⟩, -⟩ := h.1.believed x rfl
    exact ⟨⟨e, he, hx⟩, by simp⟩
  | cons m mid ih =>
    obtain ⟨hm, hmid⟩ := List.forall_mem_cons.mp hmid
    obtain ⟨⟨e, he, hx⟩, hfree⟩ := ih h.2 hmid
    obtain ⟨hk, hs, hb⟩ := timer_of_note hm he
    exact ⟨⟨e, hk, hx⟩, List.forall_mem_cons.mpr ⟨⟨hs, hb⟩, hfree⟩⟩

/-- The last that was heard before something was believed is a down, if anything was. -/
theorem Fits.heard (h : Fits w id k (l ++ ⟨.believed id x, g⟩ :: rest)) :
    (∀ m ∈ l, m.mark.heard? id = none) ∨
      ∃ pre m mid, l = pre ++ m :: mid ∧ m.mark.heard? id = some false ∧ ∀ x ∈ mid, x.mark.heard? id = none := by
  induction l generalizing k with
  | nil => exact .inl (List.forall_mem_nil _)
  | cons m l ih =>
    rcases ih h.2 with hall | ⟨pre, m', mid, rfl, hdown, hmid⟩
    · cases hm : m.mark.heard? id with
      | none => exact .inl (List.forall_mem_cons.mpr ⟨hm, hall⟩)
      | some up =>
        obtain ⟨⟨y, hy, -⟩, -⟩ := Fits.source h.2 hall
        cases up with
        | false => exact .inr ⟨[], m, l, rfl, hm, hall⟩
        | true =>
          obtain ⟨a, g'⟩ := m
          obtain ⟨e, out, rfl, hnews⟩ := Mark.eq_settled hm
          simp [timer_up hnews] at hy
    · exact .inr ⟨m :: pre, m', mid, rfl, hdown, hmid⟩

/-- What is held is believed when it is due, if nothing makes it void before. -/
theorem Fits.due (h : Fits w id k l) (hd : k.timer = some (d, y))
    (hfree : ∀ m ∈ l, m.time < d → m.mark.supersedes id = false) :
    (∃ mid b rest, l = mid ++ b :: rest ∧ b.mark.isBelieved id = true ∧ b.time = d ∧
        ∀ m ∈ mid, m.mark.heard? id = none) ∨
      (k.notes w id l).timer = some (d, y) := by
  induction l generalizing k with
  | nil => exact .inr hd
  | cons m l ih =>
    obtain ⟨hm, hl⟩ := List.forall_mem_cons.mp hfree
    have hs : m.mark.supersedes id = false := by
      refine Bool.eq_false_iff.mpr fun hs => ?_
      have hbefore := (h.1.waiting d y hd).2 hs
      simp [hm hbefore] at hs
    cases hb : m.mark.isBelieved id with
    | true =>
      obtain ⟨x, hx⟩ := Mark.eq_believed hb
      obtain ⟨⟨e, he, -⟩, -⟩ := h.1.believed x hx
      have hdue : (d, y) = (m.time, e) := Option.some.inj (hd.symm.trans he)
      exact .inl ⟨[], m, l, rfl, hb, (congrArg Prod.fst hdue).symm, List.forall_mem_nil _⟩
    | false =>
      rcases ih h.2 ((note_timer hs hb).trans hd) hl with ⟨mid, b, rest, rfl, hb', ht, hmid⟩ | hend
      · refine .inl ⟨m :: mid, b, rest, rfl, hb', ht, List.forall_mem_cons.mpr ⟨?_, hmid⟩⟩
        simpa using (Bool.or_eq_false_iff.mp hs).1
      · exact .inr hend

/-! ## Flaps -/

/-- What is due is not believed as long as there is news before each time something is due. -/
theorem Fits.quiet (hw : 0 < w) (h : Fits w id k (l ++ rest)) (htimes : l.Pairwise (·.time ≤ ·.time))
    (hend : ∀ m ∈ l, m.mark.isEnd = false) (hshown : k.shown = some true) (hfired : k.fired = false)
    (htimer : ∀ d y, k.timer = some (d, y) → ∃ m ∈ l, m.time < d ∧ m.mark.heard? id ≠ none)
    (hback : ∀ mid (m : Moment) rest, l = mid ++ m :: rest → m.mark.heard? id = some false →
      ∃ x ∈ rest, x.time < m.time + w ∧ x.mark.heard? id ≠ none) :
    ∀ m ∈ l, m.mark.shown? id = none := by
  induction l generalizing k with
  | nil => simp
  | cons m l ih =>
    obtain ⟨hbefore, htimes⟩ := List.pairwise_cons.mp htimes
    obtain ⟨hm, hend⟩ := List.forall_mem_cons.mp hend
    have hnone : m.mark.shown? id = none := by
      cases hs : m.mark.shown? id with
      | none => rfl
      | some up =>
        obtain ⟨hne, hdown⟩ := h.1.shown up hs
        cases up with
        | true => exact absurd hshown hne
        | false => simp [hdown rfl hw] at hfired
    refine List.forall_mem_cons.mpr ⟨hnone, ih h.2 htimes hend ?_ ?_ ?_ fun mid x rest hl =>
      hback (m :: mid) x rest (by rw [hl]; rfl)⟩
    · rw [note_shown, hm, hnone]
      exact hshown
    · refine note_fired (Bool.eq_false_iff.mpr fun hb => ?_) hfired
      -- had the down been due now, there would have been news before
      obtain ⟨x, hx⟩ := Mark.eq_believed hb
      obtain ⟨⟨e, he, -⟩, -⟩ := h.1.believed x hx
      obtain ⟨m', hm', hlt, _⟩ := htimer _ _ he
      rcases List.mem_cons.mp hm' with rfl | hm'
      · exact Int.lt_irrefl _ hlt
      · exact Int.not_le.mpr hlt (hbefore m' hm')
    · intro d y hd
      cases hheard : m.mark.heard? id with
      | none =>
        obtain ⟨m', hm', hlt, hnews⟩ := htimer d y (timer_of_note hheard hd).1
        rcases List.mem_cons.mp hm' with rfl | hm'
        · exact absurd hheard hnews
        · exact ⟨m', hm', hlt, hnews⟩
      | some up =>
        have hnow := hback [] m l rfl
        obtain ⟨a, g⟩ := m
        obtain ⟨e, out, rfl, hnews⟩ := Mark.eq_settled hheard
        cases up with
        | true => simp [timer_up hnews] at hd
        | false =>
          obtain ⟨rfl, -⟩ : g.now + w = d ∧ e.believed = y := by simpa [timer_down hw hnews] using hd
          exact hnow hheard

/-! ## Timelines that fit -/

theorem Fits.queued (h : Fits w id k l) : ∀ m ∈ l, ∀ x, m.mark = .believed id x → m.after.queue.head? = some x := by
  induction l generalizing k with
  | nil => simp
  | cons m l ih => exact List.forall_mem_cons.mpr ⟨fun x hx => (h.1.believed x hx).2, ih h.2⟩

theorem Fits.debounced {now : Instant} (hw : 0 < w) (h : Fits w id fresh l)
    (htimes : l.Pairwise (·.time ≤ ·.time)) (hnow : ∀ m ∈ l, m.time ≤ now)
    (hlast : ∀ d y, (fresh.notes w id l).timer = some (d, y) → now < d) :
    Debounced w id now l where
  down := by
    rintro pre ⟨a, g⟩ post rfl hdown
    obtain ⟨e, out, rfl, hnews⟩ := Mark.eq_settled hdown
    have hpost := (Fits.right h).2
    constructor
    · rintro ⟨mid, ⟨b, g'⟩, rest, rfl, hb, ht, hmid⟩
      obtain ⟨x, rfl⟩ := Mark.eq_believed hb
      obtain ⟨-, hfree⟩ := hpost.source hmid
      have hafter := (List.pairwise_cons.mp (List.pairwise_append.mp htimes).2.1).2
      have hlater := (List.pairwise_append.mp hafter).2.1
      refine ⟨ht ▸ hnow ⟨.believed id x, g'⟩ (by simp), fun m hm hlt => ?_⟩
      rcases List.mem_append.mp hm with hm | hm
      · exact (hfree m hm).1
      · rcases List.mem_cons.mp hm with rfl | hm
        · rfl
        · exact absurd (ht ▸ hlt) (Int.not_lt.mpr ((List.pairwise_cons.mp hlater).1 m hm))
    · rintro ⟨hdue, hfree⟩
      refine (hpost.due (timer_down hw hnews out g) hfree).resolve_right fun hend => ?_
      have hlast := hlast (g.now + w) e.believed
      rw [notes_append] at hlast
      exact Int.not_le.mpr (hlast hend) hdue
  once := by
    rintro pre e out g mid x g' post rfl hnews hmid
    obtain ⟨⟨y, hy, hx⟩, hfree⟩ := Fits.source (Fits.right h).2 hmid
    obtain ⟨ht, rfl⟩ : g.now + w = g'.now ∧ e.believed = y := by
      simpa [timer_down hw hnews] using hy
    exact ⟨ht.symm, hx, fun m hm => (hfree m hm).2⟩
  queued := h.queued
  source := by
    rintro pre ⟨b, g⟩ post rfl hb
    obtain ⟨x, rfl⟩ := Mark.eq_believed hb
    rcases h.heard with hall | hsplit
    · obtain ⟨⟨y, hy, -⟩, -⟩ := h.source hall
      cases hy
    · exact hsplit
  up := by
    rintro pre e out g post rfl hnews
    have hfit := (Fits.right h).1.up e out rfl hnews
    rwa [shown_fresh_notes] at hfit
  flaps := by
    rintro pre l' post rfl hshown hheard hend hback
    have hfounded : (fresh.notes w id pre).Founded := h.left.founded (by simp [Founded, fresh])
    have hup : (fresh.notes w id pre).heard = some true := (heard_fresh_notes w id pre).trans hheard
    obtain ⟨htimer, hfired⟩ := not_or.mp fun hdown => by simpa using (hfounded hdown).symm.trans hup
    rw [Classical.not_not] at htimer
    refine Fits.quiet hw (Fits.right h) ?_ hend ?_ (Bool.eq_false_iff.mpr hfired) (by simp [htimer]) hback
    · exact (List.pairwise_append.mp (List.pairwise_append.mp htimes).2.1).1
    · exact (shown_fresh_notes w id pre).trans hshown

end Track

namespace Feed

/-- Take any session, and whatever comes in, is asked for and is waited for in it and after it. If
downs are held at all, the queue has room for one event, and no record from the wire claims to be
one that was held, then in the course of the run, step by step, the downs of every port are held for
the window. -/
theorem run_debounced (f : Feed) (turns : List Turn) (id : PortId) (window : 0 < f.config.debounce)
    (room : 0 < f.config.capacity)
    (raw : ∀ line ∈ f.attach.arrivals (f.attach.brought turns), poses line = false) :
    (∃ l, Course .exact f.attach turns l) ∧
    ∀ l, Course .exact f.attach turns l →
      l.delivered = f.attach.deliveries turns ∧
      Debounced f.config.debounce id (f.attach.run turns).now l := by
  have hcourse := exists_course (c := .exact) (f := f.attach) (fun _ => .of_held_nil rfl) turns
  refine ⟨hcourse.1, fun l hl => ⟨hl.delivered, ?_⟩⟩
  have htold : Told f.config.debounce id .fresh l (f.attach.run turns) :=
    Tallies.steps (f := f.attach) (.fresh rfl rfl rfl) hl.steps (hl.raw raw) room
  obtain ⟨htimes, hnow⟩ := hl.steps.times
  exact htold.fits.debounced window htimes hnow fun d y hd => htold.tallies.clear (hcourse.2 rfl) hd

section Small

def usualFeed : Feed := fresh (.usual "events.sock")

def portRecord (status : String) : List UInt8 :=
  smallRecord ("\"PORT_CHANGE\":\x7b\"port_no\":3,\"status\":" ++ status ++ "\x7d")

/-- A port comes up, flaps once, and then goes down for good. -/
def flapTurns : List Turn :=
  [ .receive (framed [portRecord "true"]), .poll, .sleep 1000,
    .receive (framed [portRecord "false"]), .poll, .sleep 4000,
    .receive (framed [portRecord "true", portRecord "false"]), .await 6000 ]

theorem run_debounced_small :
    ∃ l, Course .exact usualFeed.attach flapTurns l ∧
      Debounced 5000 ⟨1, 3⟩ (usualFeed.attach.run flapTurns).now l := by
  have raw : ∀ line ∈ usualFeed.attach.arrivals (usualFeed.attach.brought flapTurns), poses line = false := by
    decide +kernel
  obtain ⟨⟨l, hl⟩, hall⟩ := run_debounced usualFeed flapTurns ⟨1, 3⟩ (by decide) (by decide) raw
  exact ⟨l, hl, (hall l hl).2⟩

/-- The first down is not believed, and the second is when it is due. -/
example : ((usualFeed.attach.deliveries flapTurns).map (·.port?), (usualFeed.attach.run flapTurns).now) =
    ([some (⟨1, 3⟩, true), some (⟨1, 3⟩, false)], 10000) := by
  decide +kernel

end Small
end Feed
end Fabric
