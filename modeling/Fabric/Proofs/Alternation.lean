import Mathlib.Data.List.Chain
import Mathlib.Data.List.Infix
import Mathlib.Data.List.Perm.Basic
import Fabric.Proofs.Debounce
import Fabric.Proofs.Detached

/-! No news of a port is repeated. The states that are shown of a port in a session alternate, because the
ingestor remembers the one that it showed last. Whether none is lost is up to the tasks. A task that has woken up
can be cancelled no more, and it puts its down in front of the queue whenever it comes to that; an up that the
reader has in hand by then is shown before it, though it was heard after it (`Comes`). In the end the port is shown
as it was heard last unless that was an up and such a down came after it (`deliveries_alternate`). No task that
steps in only while the reader has nothing in hand and has yet to look at the queue makes this happen. -/

namespace Fabric

open Feed

instance (id : PortId) (e : Event) : Decidable (e.Ripe id) := inferInstanceAs (Decidable (_ ∧ _))

/-- At most one state is shown, and not the one that was shown before. -/
inductive Change : Option Bool → List Bool → Option Bool → Prop where
  | none (s : Option Bool) : Change s [] s
  | some {s : Option Bool} {up : Bool} : s ≠ some up → Change s [up] (some up)

theorem Change.alternate {s s' : Option Bool} {us vs : List Bool} (h : Change s vs s')
    (hchain : us.IsChain (· ≠ ·)) (hlast : us.getLast? = s) :
    (us ++ vs).IsChain (· ≠ ·) ∧ (us ++ vs).getLast? = s' := by
  cases h with
  | none => simpa using ⟨hchain, hlast⟩
  | some hne =>
    refine ⟨List.isChain_append.mpr ⟨hchain, List.isChain_singleton _, ?_⟩, List.getLast?_concat ..⟩
    intro a ha b hb
    cases hb
    rintro rfl
    exact hne (hlast.symm.trans ha)

def Reader.hand : Reader → List Event
  | working e => [e]
  | _ => []

/-- The reader has looked at the queue, and not come back to it. -/
def Reader.isBusy : Reader → Bool
  | reading | working _ => true
  | _ => false

/-- An ingestor goes on with its session. -/
def Move.isWithin : Move → Bool
  | close => false
  | _ => true

namespace Ingestor

variable {s t : Ingestor} {id x : PortId} {up : Bool} {e : Event} {a : Move} {moves pre : List Move}

/-- What the reader works off before it reads a line. -/
def ahead (s : Ingestor) : List Event := s.reader.hand ++ s.core.queue

/-- A down of the port that can be cancelled no more is yet to be worked off. -/
def Comes (s : Ingestor) (id : PortId) : Prop := (∃ h ∈ s.awake, h.id = id) ∨ ∃ e ∈ s.ahead, e.Ripe id

instance (s : Ingestor) (id : PortId) : Decidable (s.Comes id) := inferInstanceAs (Decidable (_ ∨ _))

/-- Nothing is in hand, queued or held. -/
structure Quiet (s : Ingestor) : Prop where
  ahead : s.ahead = []
  live : s.live = []
  awake : s.awake = []

/-- What was heard of the port last was heard right after the moves `pre`. -/
def HeardAfter (s : Ingestor) (id : PortId) (moves pre : List Move) (up : Bool) : Prop :=
  ∃ a post, moves = pre ++ a :: post ∧ ((s.run pre).step a).2.filterMap (·.heard? id) = [up] ∧
    (((s.run pre).step a).1.marks post).filterMap (·.heard? id) = []

theorem run_snoc (s : Ingestor) (moves : List Move) (a : Move) : s.run (moves ++ [a]) = ((s.run moves).step a).1 := by
  rw [run_append]
  rfl

theorem marks_snoc (s : Ingestor) (moves : List Move) (a : Move) :
    s.marks (moves ++ [a]) = s.marks moves ++ ((s.run moves).step a).2 := by
  rw [marks_append, marks, marks, List.append_nil]

theorem HeardAfter.snoc (h : s.HeardAfter id moves pre up)
    (ha : ((s.run moves).step a).2.filterMap (·.heard? id) = []) : s.HeardAfter id (moves ++ [a]) pre up := by
  obtain ⟨b, post, rfl, hup, hpost⟩ := h
  refine ⟨b, post ++ [a], by simp, hup, ?_⟩
  rw [run_append] at ha
  rw [marks_snoc, List.filterMap_append, hpost]
  exact ha

theorem HeardAfter.last (h : s.HeardAfter id moves pre up) :
    ((s.marks moves).filterMap (·.heard? id)).getLast? = some up := by
  obtain ⟨b, post, rfl, hup, hpost⟩ := h
  rw [marks_append, marks, List.filterMap_append, List.filterMap_append, hup, hpost, List.append_nil,
    List.getLast?_concat]

/-! ## What a step tells of a port -/

/-- Nothing is heard of the port, and nothing shown. -/
structure Aside (id : PortId) (s : Ingestor) (ms : List Mark) (t : Ingestor) : Prop where
  heard : ms.filterMap (·.heard? id) = []
  shown : ms.filterMap (·.shown? id) = []
  previous : t.core.previous = s.core.previous

theorem Aside.of_marks {ms : List Mark} (h : ∀ m ∈ ms, ∀ e out, m ≠ .settled e out)
    (hprevious : t.core.previous = s.core.previous) : Aside id s ms t := by
  have hmark : ∀ m ∈ ms, m.heard? id = none ∧ m.shown? id = none := by
    intro m hm
    cases m with
    | settled e out => exact absurd rfl (h _ hm e out)
    | _ => exact ⟨rfl, rfl⟩
  exact ⟨List.filterMap_eq_nil_iff.mpr fun m hm => (hmark m hm).1,
    List.filterMap_eq_nil_iff.mpr fun m hm => (hmark m hm).2, hprevious⟩

theorem put_aside (s : Ingestor) (i : Nat) : Aside id s (s.put i).2 (s.put i).1 := by
  unfold put
  split
  next h _ =>
    refine .of_marks (fun m hm e out heq => ?_) rfl
    rcases List.mem_append.mp hm with hm | hm
    · obtain ⟨y, -, rfl⟩ := List.mem_map.mp hm
      cases heq
    · obtain ⟨y, rfl⟩ := mem_overflow hm
      cases heq
  next => exact .of_marks (by simp) rfl

theorem line_aside (s : Ingestor) : Aside id s s.line.2 s.line.1 := by
  unfold line
  split
  · exact .of_marks (by simp) rfl
  · dsimp only
    split
    · exact .of_marks (by simp) rfl
    · split <;> exact .of_marks (by simp) rfl

theorem work_parts {es : List Event} (h : parts? e = some es) :
    s.work e = ((s.withCore (s.core.push es)).withReader .looking, s.core.overflow es) := by
  rw [work, h]

/-- The reader settles the event. -/
structure Settling (s : Ingestor) (a : Move) (e : Event) : Prop where
  work : a = .work
  hand : s.reader = .working e
  single : parts? e = none

theorem Settling.step (h : s.Settling a e) :
    s.step a = ((s.settle e).1.withReader (if (s.settle e).2.isSome then .resting else .looking),
      [.settled e (s.settle e).2]) := by
  obtain ⟨rfl, hreader, hparts⟩ := h
  rw [step_work hreader, Ingestor.work, hparts]

/-- Nothing else tells anything of a port. -/
theorem step_aside (hopen : s.reader ≠ .closing) (ha : ∀ e, ¬ s.Settling a e) (id : PortId) :
    Aside id s (s.step a).2 (s.step a).1 := by
  have hmove := s.happens a
  generalize s.step a = r at *
  cases hmove with
  | nothing | tick | close | receive | setHorizon => exact .of_marks (by simp) rfl
  | hangUp =>
    refine .of_marks (by simp) ?_
    obtain ⟨w, hw⟩ := hangUp_eq s.core
    rw [hw]
    rfl
  | wake x => exact .of_marks (by simp) (by rw [s.wake_core x])
  | put i => exact s.put_aside i
  | look =>
    refine .of_marks (by simp) ?_
    unfold look
    split <;> rfl
  | line => exact s.line_aside
  | @work e hreader =>
    cases hparts : parts? e with
    | none => exact absurd ⟨rfl, hreader, hparts⟩ (ha e)
    | some es =>
      rw [work_parts hparts]
      refine .of_marks (fun m hm e out heq => ?_) rfl
      obtain ⟨y, rfl⟩ := mem_overflow hm
      cases heq
  | revoke _ hclosing => exact absurd hclosing hopen
  | reset _ hclosing => exact absurd hclosing hopen

/-! ## Alternation -/

theorem dedupe_change (f : Feed) (id : PortId) (hport : e.port? = some (x, up)) :
    Change (f.previous.get? id) ((f.dedupe x up e).2.toList.filterMap (·.upOf? id))
      ((f.dedupe x up e).1.previous.get? id) := by
  rw [previous_dedupe]
  by_cases hx : x = id
  · subst hx
    by_cases hprev : f.previous.get? x = some up
    · simpa [Feed.dedupe, hprev] using Change.none _
    · simpa [Feed.dedupe, hprev, Event.upOf?_eq hport] using Change.some hprev
  · have hnone : (f.dedupe x up e).2.toList.filterMap (·.upOf? id) = [] := by
      unfold Feed.dedupe
      split <;> simp [Event.upOf?_eq hport, hx]
    rw [hnone, if_neg hx]
    exact .none _

theorem settle_change (s : Ingestor) (id : PortId) (e : Event) :
    Change (s.core.previous.get? id) ((s.settle e).2.toList.filterMap (·.upOf? id))
      ((s.settle e).1.core.previous.get? id) := by
  have hsettles := s.settles e
  generalize s.settle e = r at *
  cases hsettles with
  | other hport => simpa [Event.upOf?_eq_none hport] using Change.none _
  | believed hport => exact dedupe_change s.core id hport
  | @passed x _ hport =>
    have hcore := (s.cancel_same x).1
    have hchange := dedupe_change (s.cancel x).core id (e := e.believed) hport
    rw [hcore] at hchange
    unfold Ingestor.dedupe
    rw [hcore]
    exact hchange
  | @held x =>
    have hcore : ((s.cancel x).start x e.believed).core = s.core := (s.cancel_same x).1
    rw [hcore]
    exact .none _

theorem shown_settled (e : Event) (out : Option Event) :
    [Mark.settled e out].filterMap (·.shown? id) = out.toList.filterMap (·.upOf? id) := by
  cases out <;> rfl

theorem step_change (hopen : s.reader ≠ .closing) (a : Move) (id : PortId) :
    Change (s.core.previous.get? id) ((s.step a).2.filterMap (·.shown? id)) ((s.step a).1.core.previous.get? id) := by
  by_cases hsettling : ∃ e, s.Settling a e
  · obtain ⟨e, he⟩ := hsettling
    rw [he.step, shown_settled]
    exact s.settle_change id e
  · have haside := step_aside hopen (not_exists.mp hsettling) id
    rw [haside.shown, haside.previous]
    exact .none _

/-- The session goes on. -/
theorem step_open (hopen : s.reader ≠ .closing) (ha : a.isWithin = true) : (s.step a).1.reader ≠ .closing := by
  have hmove := s.happens a
  generalize s.step a = r at *
  cases hmove with
  | nothing | receive | hangUp | tick | setHorizon => exact hopen
  | wake x => rwa [s.wake_reader x]
  | put i =>
    unfold put
    split <;> exact hopen
  | look =>
    unfold look
    split <;> exact nofun
  | line hreader =>
    unfold line
    split
    · exact nofun
    · dsimp only
      split
      · exact hopen
      · split
        · exact hopen
        · exact nofun
        · exact nofun
  | @work e =>
    unfold work
    split
    · exact nofun
    · show (if (s.settle e).2.isSome then Reader.resting else .looking) ≠ .closing
      split <;> exact nofun
  | close => cases ha
  | revoke _ hclosing => exact absurd hclosing hopen
  | reset _ hclosing => exact absurd hclosing hopen

theorem run_open (hopen : s.reader ≠ .closing) (session : ∀ a ∈ moves, a.isWithin = true) :
    (s.run moves).reader ≠ .closing := by
  induction moves generalizing s with
  | nil => exact hopen
  | cons a moves ih =>
    obtain ⟨ha, hmoves⟩ := List.forall_mem_cons.mp session
    exact ih (step_open hopen ha) hmoves

/-- In a session no state is shown twice in a row, and the ingestor remembers the last. -/
theorem run_alternate (hopen : s.reader ≠ .closing) (hnew : s.core.previous.get? id = none)
    (session : ∀ a ∈ moves, a.isWithin = true) :
    ((s.marks moves).filterMap (·.shown? id)).IsChain (· ≠ ·) ∧
      ((s.marks moves).filterMap (·.shown? id)).getLast? = (s.run moves).core.previous.get? id := by
  induction moves using List.reverseRecOn with
  | nil => exact ⟨List.isChain_nil, hnew.symm⟩
  | append_singleton moves a ih =>
    obtain ⟨hmoves, -⟩ := List.forall_mem_append.mp session
    obtain ⟨hchain, hlast⟩ := ih hmoves
    rw [marks_snoc, run_snoc, List.filterMap_append]
    exact (step_change (run_open hopen hmoves) a id).alternate hchain hlast

/-! ## What is owed -/

/-- A down of the port is yet to be shown, if it is not shown already. -/
def Owes (s : Ingestor) (id : PortId) : Prop := (∃ h ∈ s.live, h.id = id) ∨ s.Comes id

/-- With nothing more heard of the port, this is what it is shown as in the end. -/
def Due (s : Ingestor) (id : PortId) : Option Bool → Prop
  | none => ¬ s.Owes id ∧ s.core.previous.get? id = none
  | some false => s.Owes id ∨ s.core.previous.get? id = some false
  | some true => ¬ s.Owes id ∧ s.core.previous.get? id = some true

variable {up? : Option Bool}

theorem Due.congr (h : s.Due id up?) (howes : t.Owes id ↔ s.Owes id)
    (hprevious : t.core.previous.get? id = s.core.previous.get? id) : t.Due id up? := by
  match up? with
  | none | some false | some true => simpa only [Due, howes, hprevious] using h

/-- Whatever was on its way came of it. -/
theorem Due.shown (h : s.Due id up?) (hquiet : ¬ s.Owes id) : s.core.previous.get? id = up? := by
  match up? with
  | none => exact h.2
  | some true => exact h.2
  | some false => exact h.resolve_left hquiet

/-- What the reader has to work off and claims to have been held was held. -/
def Unposed (s : Ingestor) : Prop := ∀ e ∈ s.ahead, e.debounced = some true → ∃ x, e.Ripe x

theorem Quiet.not_owes (h : s.Quiet) (id : PortId) : ¬ s.Owes id := by
  simp [Owes, Comes, h.live, h.awake, h.ahead]

theorem push_eq (f : Feed) (es : List Event) (h : ∀ m ∈ f.overflow es, m.isLoss = false) :
    f.push es = { f with queue := es ++ f.queue } := by
  have hnone : (es ++ f.queue).drop f.config.capacity = [] := by
    refine List.eq_nil_iff_forall_not_mem.mpr fun x hx => ?_
    cases h (.lost x) (List.mem_map.mpr ⟨x, hx, rfl⟩)
  have hall : (es ++ f.queue).take f.config.capacity = es ++ f.queue :=
    List.take_of_length_le (List.drop_eq_nil_iff.mp hnone)
  rw [push, hall]

/-! ### Tasks -/

theorem wake_ahead (s : Ingestor) (x : PortId) : (s.wake x).ahead = s.ahead := by
  rw [ahead, wake_core, wake_reader, ahead]

theorem wake_owes (s : Ingestor) (x id : PortId) : (s.wake x).Owes id ↔ s.Owes id := by
  rcases s.wake_eq x with ⟨hsame, -⟩ | ⟨h, hdue, -, -, hlive, hawake⟩
  · rw [hsame]
  · obtain ⟨hh, hid, -⟩ := due?_eq_some hdue
    simp only [Owes, Comes, hlive, hawake, wake_ahead, List.mem_append, List.mem_singleton, List.mem_filter]
    subst hid
    constructor
    · rintro (⟨y, ⟨hy, -⟩, hyid⟩ | ⟨y, hy | rfl, hyid⟩ | hrest)
      · exact .inl ⟨y, hy, hyid⟩
      · exact .inr (.inl ⟨y, hy, hyid⟩)
      · exact .inl ⟨h, hh, hyid⟩
      · exact .inr (.inr hrest)
    · rintro (⟨y, hy, hyid⟩ | ⟨y, hy, hyid⟩ | hrest)
      · by_cases hsame : y.id = h.id
        · exact .inr (.inl ⟨_, .inr rfl, hsame ▸ hyid⟩)
        · exact .inl ⟨y, ⟨hy, by simpa using hsame⟩, hyid⟩
      · exact .inr (.inl ⟨y, .inl hy, hyid⟩)
      · exact .inr (.inr hrest)

theorem put_owes (h : s.Earned) (i : Nat) (hms : ∀ m ∈ (s.put i).2, m.isLoss = false) (id : PortId) :
    (s.put i).1.Owes id ↔ s.Owes id := by
  unfold put at hms ⊢
  split at hms
  next x hx =>
    have hripe := h.awake x (List.mem_of_getElem? hx)
    have hpush := push_eq s.core [x.believed] fun m hm => hms m (List.mem_append_right _ hm)
    have hsplit : ∀ y, y ∈ s.awake ↔ y = x ∨ y ∈ s.awake.eraseIdx i := by
      obtain ⟨hi, rfl⟩ := List.getElem?_eq_some_iff.mp hx
      have hperm := List.getElem_cons_eraseIdx_perm hi
      exact fun y => by rw [← hperm.mem_iff, List.mem_cons]
    have hx' : (∃ e ∈ [x.believed], e.Ripe id) ↔ x.id = id := by
      constructor
      · rintro ⟨e, he, hid⟩
        rw [List.mem_singleton.mp he] at hid
        exact Event.Ripe.eq (e := x.event) hripe hid
      · rintro rfl
        exact ⟨x.believed, List.mem_singleton_self _, hripe⟩
    simp only [Owes, Comes, ahead, hpush, live, List.mem_append, hsplit] at hx' ⊢
    grind
  next => rfl

/-! ### The reader -/

theorem look_ahead (h : s.IsReady) : s.look.ahead = s.ahead := by
  have hahead : s.ahead = s.core.queue := by rcases h with h | h <;> rw [ahead, h] <;> rfl
  rw [hahead]
  unfold look
  split
  next hq => rw [hq]; rfl
  next => rfl

/-- What is read is in hand then. -/
theorem line_ahead (h : s.reader = .reading) :
    s.line.1.ahead = s.ahead ∨ ∃ l e, s.line.2 = [.line l (some (.admitted e))] ∧ s.line.1.ahead = e :: s.ahead := by
  unfold line ahead
  rw [h]
  split
  · exact .inl rfl
  · dsimp only
    split
    · exact .inl (by rw [withCore, h])
    · split
      · exact .inl (by rw [withCore, h])
      · exact .inl rfl
      · exact .inr ⟨_, _, rfl, rfl⟩

/-- Nothing but the events that are worked off next has changed. -/
theorem owes_congr (hlive : t.live = s.live) (hawake : t.awake = s.awake)
    (hahead : (∃ e ∈ t.ahead, e.Ripe id) ↔ ∃ e ∈ s.ahead, e.Ripe id) : t.Owes id ↔ s.Owes id := by
  rw [Owes, Owes, Comes, Comes, hlive, hawake, hahead]

theorem live_cancel_of_ne (h : s.Tethered) (hx : x ≠ id) :
    (∃ y ∈ (s.cancel x).live, y.id = id) ↔ ∃ y ∈ s.live, y.id = id := by
  rw [live_cancel h]
  constructor
  · rintro ⟨y, hy, hid⟩
    exact ⟨y, (List.mem_filter.mp hy).1, hid⟩
  · rintro ⟨y, hy, hid⟩
    exact ⟨y, List.mem_filter.mpr ⟨hy, by simpa [hid] using hx.symm⟩, hid⟩

theorem not_live_cancel (h : s.Tethered) : ¬ ∃ y ∈ (s.cancel id).live, y.id = id := by
  rw [live_cancel h]
  rintro ⟨y, hy, hid⟩
  simpa [hid] using (List.mem_filter.mp hy).2

section Settle

variable {r : Reader}

/-- What comes with the event in hand gone. -/
theorem comes_done (hreader : s.reader = .working e) (hr : r.hand = []) (he : ¬ e.Ripe id)
    (hqueue : t.core.queue = s.core.queue) (hawake : t.awake = s.awake) : (t.withReader r).Comes id ↔ s.Comes id := by
  have hahead : s.ahead = e :: (t.withReader r).ahead := by
    rw [ahead, ahead, hreader, withReader, hr, hqueue]
    rfl
  have hawake' : (t.withReader r).awake = s.awake := hawake
  simp [Comes, hahead, he, hawake']

/-- Whoever was believed is shown what was owed. -/
theorem believed_due (h : s.Due id up?) (hreader : s.reader = .working e) (hr : r.hand = []) (hripe : e.Ripe x) :
    ((s.dedupe x false e).1.withReader r).Due id up? := by
  have hprevious := previous_dedupe s.core x id false e
  by_cases hx : x = id
  · subst hx
    have howes : s.Owes x := .inr (.inr ⟨e, by simp [ahead, hreader, Reader.hand], hripe⟩)
    match up? with
    | none => exact absurd howes h.1
    | some true => exact absurd howes h.1
    | some false => exact .inr (hprevious.trans (if_pos rfl))
  · refine h.congr (or_congr Iff.rfl ?_) (hprevious.trans (if_neg hx))
    exact comes_done hreader hr (fun he => hx (hripe.eq he)) rfl rfl

/-- What is shown at once is no longer waited for, but is not shown last if a down still comes. -/
theorem passed_due (ht : s.Tethered) (hreader : s.reader = .working e) (hr : r.hand = []) (he : ¬ e.Ripe id)
    (up : Bool) : (((s.cancel id).dedupe id up e.believed).1.withReader r).Due id
      (if up = true ∧ s.Comes id then some false else some up) := by
  obtain ⟨hcore, -, -, hawake⟩ := s.cancel_same id
  have hqueue := congrArg Feed.queue hcore
  have hrest := comes_done (t := ((s.cancel id).dedupe id up e.believed).1) hreader hr he hqueue hawake
  have howes : ((((s.cancel id).dedupe id up e.believed).1).withReader r).Owes id ↔ s.Comes id :=
    (or_iff_right (not_live_cancel ht)).trans hrest
  have hup := (previous_dedupe (s.cancel id).core id id up e.believed).trans (if_pos rfl)
  by_cases hc : s.Comes id <;> cases up <;> simp only [hc, and_true, and_false, if_true, if_false, reduceCtorEq]
  · exact .inr hup
  · exact .inl (howes.mpr hc)
  · exact .inr hup
  · exact ⟨mt howes.mp hc, hup⟩

/-- What is shown of another port at once changes nothing. -/
theorem passed_due_of_ne (h : s.Due id up?) (ht : s.Tethered) (hreader : s.reader = .working e) (hr : r.hand = [])
    (he : ¬ e.Ripe id) (hx : x ≠ id) (up : Bool) :
    (((s.cancel x).dedupe x up e.believed).1.withReader r).Due id up? := by
  obtain ⟨hcore, -, -, hawake⟩ := s.cancel_same x
  have hqueue := congrArg Feed.queue hcore
  have hrest := comes_done (t := ((s.cancel x).dedupe x up e.believed).1) hreader hr he hqueue hawake
  refine h.congr (or_congr (live_cancel_of_ne ht hx) hrest) ?_
  rw [← hcore]
  exact (previous_dedupe (s.cancel x).core x id up e.believed).trans (if_neg hx)

/-- What is held is owed. -/
theorem held_due (ht : s.Tethered) (id : PortId) (e : Event) :
    (((s.cancel id).start id e).withReader r).Due id (some false) := by
  refine .inl (.inl ?_)
  show ∃ y ∈ ((s.cancel id).start id e).live, y.id = id
  rw [live_start (ht.cancel id)]
  exact ⟨_, List.mem_append_right _ (List.mem_singleton_self _), rfl⟩

/-- What is held of another port changes nothing. -/
theorem held_due_of_ne (h : s.Due id up?) (ht : s.Tethered) (hreader : s.reader = .working e) (hr : r.hand = [])
    (he : ¬ e.Ripe id) (hx : x ≠ id) : (((s.cancel x).start x e.believed).withReader r).Due id up? := by
  obtain ⟨hcore, -, -, hawake⟩ := s.cancel_same x
  have hothers : (∃ y ∈ ((s.cancel x).start x e.believed).live, y.id = id) ↔ ∃ y ∈ s.live, y.id = id := by
    rw [← live_cancel_of_ne ht hx, live_start (ht.cancel x)]
    simp [hx]
  refine h.congr (or_congr hothers ?_) (congrArg (·.previous.get? id) hcore)
  exact comes_done hreader hr he (congrArg Feed.queue hcore) hawake

/-- An event of a port that is in hand is worked off. -/
theorem settle_due (h : s.Due id up?) (ht : s.Tethered) (hu : s.Unposed) (hreader : s.reader = .working e)
    (hr : r.hand = []) :
    (e.newsOf? id = none ∧ ((s.settle e).1.withReader r).Due id up?) ∨
      ∃ up, e.newsOf? id = some up ∧
        ((s.settle e).1.withReader r).Due id (if up = true ∧ s.Comes id then some false else some up) := by
  have hsettles := s.settles e
  generalize s.settle e = p at *
  cases hsettles with
  | other hport =>
    have he : ¬ e.Ripe id := fun he => by simpa [hport] using he.2
    refine .inl ⟨by simp [Event.newsOf?, Event.upOf?_eq_none hport], h.congr (or_congr Iff.rfl ?_) rfl⟩
    exact comes_done hreader hr he rfl rfl
  | @believed x up hport hd =>
    obtain ⟨y, hripe⟩ := hu e (by simp [ahead, hreader, Reader.hand]) hd
    obtain ⟨rfl, rfl⟩ : x = y ∧ up = false := by simpa using hport.symm.trans hripe.2
    exact .inl ⟨Event.newsOf?_eq_none hd id, believed_due h hreader hr hripe⟩
  | @passed x up hport hd hnow =>
    have he : ¬ e.Ripe id := fun he => hd he.1
    have hnews := Event.newsOf?_eq hd id
    rw [Event.upOf?_eq hport] at hnews
    by_cases hx : x = id
    · subst hx
      exact .inr ⟨up, by simpa using hnews, passed_due ht hreader hr he up⟩
    · exact .inl ⟨by simpa [hx] using hnews, passed_due_of_ne h ht hreader hr he hx up⟩
  | @held x hport hd hw =>
    have he : ¬ e.Ripe id := fun he => hd he.1
    have hnews := Event.newsOf?_eq hd id
    rw [Event.upOf?_eq hport] at hnews
    by_cases hx : x = id
    · subst hx
      exact .inr ⟨false, by simpa using hnews, by simpa using held_due ht x e.believed⟩
    · exact .inl ⟨by simpa [hx] using hnews, held_due_of_ne h ht hreader hr he hx⟩

end Settle

/-! ### Steps -/

theorem hand_after (b : Bool) : (if b then Reader.resting else .looking).hand = [] := by
  cases b <;> rfl

theorem settle_queue (s : Ingestor) (e : Event) : (s.settle e).1.core.queue = s.core.queue := by
  have hsettles := s.settles e
  generalize s.settle e = r at *
  cases hsettles with
  | other | believed => rfl
  | @passed x | @held x =>
    show (s.cancel x).core.queue = s.core.queue
    rw [(s.cancel_same x).1]

theorem ahead_working (h : s.reader = .working e) : s.ahead = e :: s.core.queue := by
  rw [ahead, h]
  rfl

theorem put_ahead (he : s.Earned) (i : Nat) (hmem : e ∈ (s.put i).1.ahead) : e ∈ s.ahead ∨ ∃ x, e.Ripe x := by
  unfold put at hmem
  split at hmem
  next x hx =>
    rcases List.mem_append.mp hmem with hhand | hqueue
    · exact .inl (List.mem_append_left _ hhand)
    · rcases List.mem_cons.mp (List.mem_of_mem_take hqueue) with rfl | hqueue
      · exact .inr ⟨x.id, he.awake x (List.mem_of_getElem? hx)⟩
      · exact .inl (List.mem_append_right _ hqueue)
  next => exact .inl hmem

theorem work_ahead (hreader : s.reader = .working e) {y : Event} (hmem : y ∈ (s.work e).1.ahead) :
    y ∈ s.ahead ∨ y.debounced ≠ some true := by
  rw [ahead_working hreader]
  unfold work at hmem
  split at hmem
  next es hparts =>
    rcases List.mem_append.mp (List.mem_of_mem_take hmem) with hmem | hmem
    · exact .inr (raw_parts hparts y hmem)
    · exact .inl (List.mem_cons_of_mem e hmem)
  next =>
    have hqueue : ((s.settle e).1.withReader (if (s.settle e).2.isSome then .resting else .looking)).ahead =
        s.core.queue := by
      rw [← s.settle_queue e, ahead, withReader, hand_after]
      rfl
    rw [hqueue] at hmem
    exact .inl (List.mem_cons_of_mem e hmem)

/-- What comes up is what was read, what was taken apart, or what a task held. -/
theorem step_ahead (he : s.Earned) (hopen : s.reader ≠ .closing) (ha : a.isWithin = true)
    (hms : ∀ m ∈ (s.step a).2, m.isPosed = false) :
    ∀ e ∈ (s.step a).1.ahead, e ∈ s.ahead ∨ e.debounced ≠ some true ∨ ∃ x, e.Ripe x := by
  have hmove := s.happens a
  generalize s.step a = r at *
  cases hmove with
  | nothing | receive | tick | setHorizon => exact fun e he => .inl he
  | hangUp =>
    rw [ahead, withCore_core, queue_hangUp]
    exact fun e he => .inl he
  | wake x =>
    rw [s.wake_ahead x]
    exact fun e he => .inl he
  | put i => exact fun e hmem => (put_ahead he i hmem).imp_right .inr
  | look hreader =>
    rw [look_ahead hreader]
    exact fun e he => .inl he
  | line hreader =>
    rcases line_ahead hreader with hsame | ⟨l, e, hmarks, hahead⟩
    · rw [hsame]
      exact fun e he => .inl he
    · rw [hahead]
      have hraw := hms (.line l (some (.admitted e))) (by simp [hmarks])
      exact List.forall_mem_cons.mpr ⟨.inr (.inl (by simpa [Mark.isPosed] using hraw)), fun e he => .inl he⟩
  | work hreader => exact fun y hmem => (work_ahead hreader hmem).imp_right .inl
  | close => cases ha
  | revoke _ hclosing => exact absurd hclosing hopen
  | reset _ hclosing => exact absurd hclosing hopen

theorem Unposed.step (h : s.Unposed) (he : s.Earned) (hopen : s.reader ≠ .closing) (ha : a.isWithin = true)
    (hms : ∀ m ∈ (s.step a).2, m.isPosed = false) : (s.step a).1.Unposed := by
  intro e hmem hd
  rcases step_ahead he hopen ha hms e hmem with hold | hraw | hripe
  · exact h e hold hd
  · exact absurd hd hraw
  · exact hripe

/-- Nothing is owed for what is read, unless it poses as something that was held. -/
theorem line_owes (hreader : s.reader = .reading) (hms : ∀ m ∈ s.line.2, m.isPosed = false) :
    s.line.1.Owes id ↔ s.Owes id := by
  obtain ⟨core, reader, hline⟩ := s.line_eq
  refine owes_congr ?_ ?_ ?_
  · rw [hline]; rfl
  · rw [hline]; rfl
  · rcases line_ahead hreader with hsame | ⟨l, e, hmarks, hahead⟩
    · rw [hsame]
    · have hraw := hms (.line l (some (.admitted e))) (by simp [hmarks])
      have he : ¬ e.Ripe id := fun hripe => by simp [Mark.isPosed, hripe.1] at hraw
      simp [hahead, he]

/-- Nothing is owed for the parts of a record. -/
theorem parts_owes {es : List Event} (hreader : s.reader = .working e) (hparts : parts? e = some es)
    (hms : ∀ m ∈ s.core.overflow es, m.isLoss = false) :
    ((s.withCore (s.core.push es)).withReader .looking).Owes id ↔ s.Owes id := by
  have he : ¬ e.Ripe id := fun hripe => by simp [parts?_of_port hripe.2] at hparts
  have hes : ¬ ∃ y ∈ es, y.Ripe id := by
    rintro ⟨y, hy, hripe⟩
    exact raw_parts hparts y hy hripe.1
  refine owes_congr rfl rfl ?_
  rw [ahead_working hreader]
  simp only [ahead, withReader, withCore, push_eq s.core es hms, Reader.hand]
  simp [he, or_and_right, exists_or, hes]

theorem Due.step (h : s.Due id up?) (ht : s.Tethered) (he : s.Earned) (hu : s.Unposed) (hopen : s.reader ≠ .closing)
    (ha : a.isWithin = true) (hms : ∀ m ∈ (s.step a).2, m.isPosed = false ∧ m.isLoss = false) :
    ((s.step a).2.filterMap (·.heard? id) = [] ∧ (s.step a).1.Due id up?) ∨
      ∃ up, (s.step a).2.filterMap (·.heard? id) = [up] ∧
        (s.step a).1.Due id (if up = true ∧ s.Comes id then some false else some up) := by
  by_cases hsettling : ∃ e, s.Settling a e
  · obtain ⟨e, hsettle⟩ := hsettling
    rw [hsettle.step]
    rcases settle_due h ht hu hsettle.hand (hand_after _) with ⟨hnone, hdue⟩ | ⟨up, hup, hdue⟩
    · exact .inl ⟨by simp [Mark.heard?, hnone], hdue⟩
    · exact .inr ⟨up, by simp [Mark.heard?, hup], hdue⟩
  · have haside := step_aside hopen (not_exists.mp hsettling) id
    refine .inl ⟨haside.heard, h.congr ?_ (by rw [haside.previous])⟩
    have hmove := s.happens a
    generalize s.step a = r at *
    cases hmove with
    | nothing | receive | tick | setHorizon => rfl
    | hangUp => exact owes_congr rfl rfl (by rw [ahead, withCore_core, queue_hangUp]; rfl)
    | wake x => exact s.wake_owes x id
    | put i => exact put_owes he i (fun m hm => (hms m hm).2) id
    | look hreader =>
      obtain ⟨core, reader, hlook⟩ := s.look_eq
      refine owes_congr ?_ ?_ (by rw [look_ahead hreader]) <;> rw [hlook] <;> rfl
    | line hreader => exact line_owes hreader fun m hm => (hms m hm).1
    | @work e hreader =>
      cases hparts : parts? e with
      | none => exact absurd ⟨e, rfl, hreader, hparts⟩ hsettling
      | some es =>
        rw [work_parts hparts] at hms ⊢
        exact parts_owes hreader hparts fun m hm => (hms m hm).2
    | close => cases ha
    | revoke _ hclosing => exact absurd hclosing hopen
    | reset _ hclosing => exact absurd hclosing hopen

/-! ### Runs -/

theorem run_due (ht : s.Tethered) (he : s.Earned) (hu : s.Unposed) (hopen : s.reader ≠ .closing) (h : s.Due id none)
    (session : ∀ a ∈ moves, a.isWithin = true)
    (hms : ∀ m ∈ s.marks moves, m.isPosed = false ∧ m.isLoss = false) :
    (s.run moves).Unposed ∧
      (((s.marks moves).filterMap (·.heard? id) = [] ∧ (s.run moves).Due id none) ∨
        ∃ pre up, s.HeardAfter id moves pre up ∧
          (s.run moves).Due id (if up = true ∧ (s.run pre).Comes id then some false else some up)) := by
  induction moves using List.reverseRecOn with
  | nil => exact ⟨hu, .inl ⟨rfl, h⟩⟩
  | append_singleton moves a ih =>
    obtain ⟨hmoves, ha⟩ := List.forall_mem_append.mp session
    rw [marks_snoc] at hms ⊢
    obtain ⟨hbefore, hlast⟩ := List.forall_mem_append.mp hms
    obtain ⟨hunposed, hdue⟩ := ih hmoves hbefore
    have hopen' := run_open hopen hmoves
    have hwithin := ha a (List.mem_singleton_self a)
    rw [run_snoc]
    refine ⟨hunposed.step (he.run moves) hopen' hwithin fun m hm => (hlast m hm).1, ?_⟩
    have hstep {up? : Option Bool} (hd : (s.run moves).Due id up?) :=
      hd.step (ht.run moves) (he.run moves) hunposed hopen' hwithin hlast
    have hnews {up : Bool} (hup : ((s.run moves).step a).2.filterMap (·.heard? id) = [up]) :
        s.HeardAfter id (moves ++ [a]) moves up := ⟨a, [], rfl, hup, rfl⟩
    rcases hdue with ⟨hnone, hd⟩ | ⟨pre, up, hheard, hd⟩
    · rcases hstep hd with ⟨hnone', hd'⟩ | ⟨up', hup, hd'⟩
      · exact .inl ⟨by rw [List.filterMap_append, hnone, hnone', List.append_nil], hd'⟩
      · exact .inr ⟨moves, up', hnews hup, hd'⟩
    · rcases hstep hd with ⟨hnone', hd'⟩ | ⟨up', hup, hd'⟩
      · exact .inr ⟨pre, up, hheard.snoc hnone', hd'⟩
      · exact .inr ⟨moves, up', hnews hup, hd'⟩

/-! ## With no task in between -/

/-- What tasks held stands in front of what was read, and of what was read nothing is left when a line is. -/
structure InOrder (s : Ingestor) : Prop where
  single : ∀ e ∈ s.core.queue, parts? e = none
  fronted : Fronted s.core.queue
  reading : s.reader = .reading → s.core.queue = []
  raw : ∀ e, s.reader = .working e → e.debounced ≠ some true → Raw s.core.queue
  bulk : ∀ e es, s.reader = .working e → parts? e = some es → s.core.queue = []

namespace InOrder

theorem congr (h : s.InOrder) (hreader : t.reader = s.reader) (hqueue : t.core.queue = s.core.queue) : t.InOrder where
  single := hqueue ▸ h.single
  fronted := hqueue ▸ h.fronted
  reading := by rw [hreader, hqueue]; exact h.reading
  raw := by rw [hreader, hqueue]; exact h.raw
  bulk := by rw [hreader, hqueue]; exact h.bulk

/-- The reader has nothing in hand, and may look at the queue. -/
theorem of_ready (hsingle : ∀ e ∈ s.core.queue, parts? e = none) (hfronted : Fronted s.core.queue)
    (hreader : s.reader.isBusy = false) : s.InOrder where
  single := hsingle
  fronted := hfronted
  reading h := by simp [h, Reader.isBusy] at hreader
  raw e h := by simp [h, Reader.isBusy] at hreader
  bulk e es h := by simp [h, Reader.isBusy] at hreader

/-- With nothing queued anything may be in hand. -/
theorem of_queue_nil (hqueue : s.core.queue = []) : s.InOrder where
  single := by simp [hqueue]
  fronted := by rw [hqueue]; exact .of_raw (List.forall_mem_nil _)
  reading _ := hqueue
  raw _ _ _ := by rw [hqueue]; exact List.forall_mem_nil _
  bulk _ _ _ _ := hqueue

theorem put (h : s.InOrder) (he : s.Earned) (hidle : s.reader.isBusy = true → s.awake = []) (i : Nat) :
    (s.put i).1.InOrder := by
  unfold Ingestor.put
  split
  next x hx =>
    have hripe : x.believed.Ripe x.id := he.awake x (List.mem_of_getElem? hx)
    have hbusy : s.reader.isBusy = false := by
      refine Bool.eq_false_iff.mpr fun hbusy => ?_
      simp [hidle hbusy] at hx
    have hparts : parts? x.believed = none := parts?_of_port hripe.2
    refine of_ready (fun e hmem => ?_) ?_ hbusy
    · rcases List.mem_cons.mp (List.mem_of_mem_take hmem) with rfl | hmem
      · exact hparts
      · exact h.single e hmem
    · show Fronted ((x.believed :: s.core.queue).take s.core.config.capacity)
      cases s.core.config.capacity with
      | zero => exact .of_raw (List.forall_mem_nil _)
      | succ n => exact h.fronted.cons_take hripe n
  next => exact h

theorem look (h : s.InOrder) : s.look.InOrder := by
  unfold Ingestor.look
  split
  next e r hq =>
    have hfronted := hq ▸ h.fronted
    obtain ⟨he, hr⟩ := List.forall_mem_cons.mp (hq ▸ h.single)
    refine ⟨hr, hfronted.tail, nofun, fun y hy hraw => ?_, fun y es hy hes => ?_⟩
    · cases hy
      exact hfronted.raw_tail hraw
    · cases hy
      rw [he] at hes
      cases hes
  next hq => exact of_queue_nil hq

theorem work (h : s.InOrder) (hreader : s.reader = .working e) : (s.work e).1.InOrder := by
  unfold Ingestor.work
  split
  next es hparts =>
    have hqueue := h.bulk e es hreader hparts
    have hmem : ∀ x ∈ (es ++ s.core.queue).take s.core.config.capacity, x ∈ es := by
      rw [hqueue, List.append_nil]
      exact fun x hx => List.mem_of_mem_take hx
    exact of_ready (fun x hx => parts?_of_mem hparts (hmem x hx))
      (.of_raw fun x hx => raw_parts hparts x (hmem x hx)) rfl
  next =>
    have hqueue := s.settle_queue e
    refine of_ready (s := (s.settle e).1.withReader _) (hqueue ▸ h.single) (hqueue ▸ h.fronted) ?_
    cases (s.settle e).2 <;> rfl

theorem line (h : s.InOrder) (hreader : s.reader = .reading) : s.line.1.InOrder := by
  refine of_queue_nil ?_
  have hqueue := h.reading hreader
  unfold Ingestor.line
  split
  · exact hqueue
  · dsimp only
    split
    · exact hqueue
    · split <;> exact hqueue

theorem step (h : s.InOrder) (he : s.Earned) (hopen : s.reader ≠ .closing) (ha : a.isWithin = true)
    (hidle : s.reader.isBusy = true → s.awake = []) : (s.step a).1.InOrder := by
  have hmove := s.happens a
  generalize s.step a = r at *
  cases hmove with
  | nothing => exact h
  | receive | tick | setHorizon => exact h.congr rfl rfl
  | hangUp => exact h.congr rfl (queue_hangUp s.core)
  | wake x => exact h.congr (s.wake_reader x) (by rw [s.wake_core x])
  | put i => exact h.put he hidle i
  | look => exact h.look
  | line hreader => exact h.line hreader
  | work hreader => exact h.work hreader
  | close => cases ha
  | revoke _ hclosing => exact absurd hclosing hopen
  | reset _ hclosing => exact absurd hclosing hopen

theorem run (h : s.InOrder) (he : s.Earned) (hopen : s.reader ≠ .closing) (session : ∀ a ∈ moves, a.isWithin = true)
    (hidle : ∀ pre, pre <+: moves → (s.run pre).reader.isBusy = true → (s.run pre).awake = []) :
    (s.run moves).InOrder := by
  induction moves using List.reverseRecOn with
  | nil => exact h
  | append_singleton moves a ih =>
    obtain ⟨hmoves, ha⟩ := List.forall_mem_append.mp session
    have hbefore := ih hmoves fun pre hpre => hidle pre (hpre.trans (List.prefix_append _ _))
    rw [run_snoc]
    exact hbefore.step (he.run moves) (run_open hopen hmoves) (ha a (List.mem_singleton_self a))
      (hidle moves (List.prefix_append _ _))

/-- Nothing of a port that is on its way is overtaken by news of the port. -/
theorem not_comes (h : s.InOrder) (hopen : s.reader ≠ .closing) (hidle : s.reader.isBusy = true → s.awake = [])
    (hup : (s.step a).2.filterMap (·.heard? id) = [up]) : ¬ s.Comes id := by
  by_cases hsettling : ∃ e, s.Settling a e
  · obtain ⟨e, he⟩ := hsettling
    have hraw : e.debounced ≠ some true := by
      intro hd
      rw [he.step] at hup
      simp [Mark.heard?, Event.newsOf?_eq_none hd] at hup
    have hawake := hidle (by rw [he.hand]; rfl)
    rintro (⟨y, hy, -⟩ | ⟨y, hy, hripe⟩)
    · rw [hawake] at hy
      cases hy
    · rw [ahead_working he.hand] at hy
      rcases List.mem_cons.mp hy with rfl | hy
      · exact hraw hripe.1
      · exact h.raw e he.hand hraw y hy hripe.1
  · rw [(step_aside hopen (not_exists.mp hsettling) id).heard] at hup
    cases hup

end InOrder

/-! ## Sessions -/

/-- Take any session, and whatever comes in, is asked for, and any tasks that step in at any time. No state of a
port is shown twice in a row. If the session begins with nothing on its way, no record from the wire claims to be
one that was held, and nothing is lost of the queue, then whenever nothing is on its way again the port is shown as
it was heard last, save that an up is given up for a down that could be cancelled no more when it was heard. This
does not happen as long as no task has woken up when the reader is past the queue. -/
theorem deliveries_alternate (config : FeedConfig) (before moves : List Move) (id : PortId)
    (opened : ((fresh config).run before).reader ≠ .closing)
    (begun : ((fresh config).run before).core.previous.get? id = none)
    (session : ∀ a ∈ moves, a.isWithin = true) :
    let s := (fresh config).run before
    let shown := (s.marks moves).filterMap (·.shown? id)
    let heard := (s.marks moves).filterMap (·.heard? id)
    shown.IsChain (· ≠ ·) ∧
    (s.Quiet → (∀ m ∈ s.marks moves, m.isPosed = false ∧ m.isLoss = false) → (s.run moves).Quiet →
      (heard = [] ∧ shown = [] ∨ ∃ pre up, s.HeardAfter id moves pre up ∧
        shown.getLast? = if up = true ∧ (s.run pre).Comes id then some false else some up) ∧
      ((∀ pre, pre <+: moves → (s.run pre).reader.isBusy = true → (s.run pre).awake = []) →
        shown.getLast? = heard.getLast?)) := by
  intro s shown heard
  obtain ⟨hchain, hlast⟩ := run_alternate opened begun session
  refine ⟨hchain, fun hquiet hms hend => ?_⟩
  have hunposed : s.Unposed := by simp [Unposed, hquiet.ahead]
  have hqueue : s.core.queue = [] := (List.append_eq_nil_iff.mp hquiet.ahead).2
  have he : s.Earned := (Earned.fresh config).run before
  obtain ⟨-, hdue⟩ := run_due ((Tethered.fresh config).run before) he hunposed opened
    ⟨hquiet.not_owes id, begun⟩ session hms
  rcases hdue with ⟨hnone, hd⟩ | ⟨pre, up, hheard, hd⟩
  · have hshown : shown = [] := List.getLast?_eq_none_iff.mp (hlast.trans (hd.shown (hend.not_owes id)))
    exact ⟨.inl ⟨hnone, hshown⟩, fun _ => by rw [hshown, show heard = [] from hnone]⟩
  · have hshown := hlast.trans (hd.shown (hend.not_owes id))
    refine ⟨.inr ⟨pre, up, hheard, hshown⟩, fun hidle => ?_⟩
    rw [hshown, hheard.last, if_neg]
    rintro ⟨-, hcomes⟩
    obtain ⟨a, post, hmoves, hup, -⟩ := hheard
    have hpre : pre <+: moves := ⟨a :: post, hmoves.symm⟩
    have hsession : ∀ b ∈ pre, b.isWithin = true := fun b hb => session b (hpre.subset hb)
    have horder := (InOrder.of_queue_nil hqueue).run he opened hsession fun p hp => hidle p (hp.trans hpre)
    exact horder.not_comes (run_open opened hsession) (hidle pre hpre) hup hcomes

section Small

/-- An ingestor with a wire on which nothing has come. -/
def attached : Ingestor := (fresh (.usual "events.sock")).run [.close, .reset .live]

/-- A down is held, and an up comes in time for the reader, who finds nothing queued. Then the down is due, and its
task puts it into the queue before the reader has read the up. -/
def lateMoves : List Move :=
  [ .receive (framed [portRecord "false"]), .look, .line, .work, .receive (framed [portRecord "true"]), .look,
    .tick 5000, .wake ⟨1, 3⟩, .put 0, .line, .work, .look, .work, .look, .line ]

theorem isEmpty_quiet (h : (s.ahead.isEmpty && s.live.isEmpty && s.awake.isEmpty) = true) : s.Quiet := by
  obtain ⟨⟨hahead, hlive⟩, hawake⟩ : ((s.ahead = [] ∧ s.live = []) ∧ s.awake = []) := by simpa using h
  exact ⟨hahead, hlive, hawake⟩

/-- The up was heard last, and the down is shown last. -/
theorem news_overtaken :
    attached.Quiet ∧ attached.reader = .resting ∧ attached.core.previous = ∅ ∧
    (∀ a ∈ lateMoves, a.isWithin = true) ∧
    (∀ m ∈ attached.marks lateMoves, m.isPosed = false ∧ m.isLoss = false) ∧
    (attached.run lateMoves).Quiet ∧ (attached.run lateMoves).core.lines = [] ∧
    (attached.marks lateMoves).filterMap (·.heard? ⟨1, 3⟩) = [false, true] ∧
    (attached.marks lateMoves).filterMap (·.shown? ⟨1, 3⟩) = [true, false] := by
  have hend : (attached.run lateMoves).Quiet := isEmpty_quiet (by decide +kernel)
  have hlines : (attached.run lateMoves).core.lines.isEmpty = true := by decide +kernel
  exact ⟨isEmpty_quiet rfl, rfl, rfl, by decide, by decide +kernel, hend, List.isEmpty_iff.mp hlines,
    by decide +kernel, by decide +kernel⟩

/-- A port comes up and flaps, and its task is cancelled in time. -/
def flapMoves : List Move :=
  [ .receive (framed [portRecord "true"]), .look, .line, .work, .receive (framed [portRecord "false"]), .look, .line,
    .work, .tick 4000, .receive (framed [portRecord "true"]), .look, .line, .work, .look, .line, .tick 5000,
    .wake ⟨1, 3⟩ ]

theorem deliveries_alternate_small :
    ((attached.marks flapMoves).filterMap (·.shown? ⟨1, 3⟩)).IsChain (· ≠ ·) ∧
      ((attached.marks flapMoves).filterMap (·.shown? ⟨1, 3⟩)).getLast? =
        ((attached.marks flapMoves).filterMap (·.heard? ⟨1, 3⟩)).getLast? := by
  have halternate := deliveries_alternate (.usual "events.sock") [.close, .reset .live] flapMoves ⟨1, 3⟩
    (show Reader.resting ≠ .closing from nofun) rfl (by decide)
  have hend : (attached.run flapMoves).Quiet := isEmpty_quiet (by decide +kernel)
  have hidle : ∀ pre ∈ flapMoves.inits,
      (attached.run pre).reader.isBusy = true → (attached.run pre).awake.isEmpty = true := by
    decide +kernel
  refine ⟨halternate.1, (halternate.2 (isEmpty_quiet rfl) (by decide +kernel) hend).2 fun pre hpre hbusy => ?_⟩
  exact List.isEmpty_iff.mp (hidle pre ((List.mem_inits _ _).mpr hpre) hbusy)

end Small
end Ingestor
end Fabric
