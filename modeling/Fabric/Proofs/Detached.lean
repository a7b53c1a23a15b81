import Fabric.Proofs.Track
import Fabric.Proofs.Tables

/-! A feed whose timers are on their own. What is held of a port is with a task that sleeps, sees to it that
its token has not been cancelled, and then puts its event in front of the queue. Tasks run on other threads,
so between any two steps of the reader a task may wake up or put its event; the reader looks at the queue,
reads a line off and works off what it has in hand in steps of its own, and it clears the queue before it
cancels the tasks. It cannot take a task back; all it has is the token that it filed last for each port, which
stays there when the task is done. Still it can reach every task that is asleep and not cancelled
(`Tethered`). What is done to a `Feed` is done with no task stepping in between. -/

namespace Fabric

/-- A task that has not woken up yet, cancelled or not. -/
structure Task where
  token : Nat
  held : Held

/-- Where the reader is. -/
inductive Reader where
  /-- Nobody asks. -/
  | resting
  /-- The queue is looked at next. -/
  | looking
  /-- The queue was empty, and a line is read next. -/
  | reading
  /-- An event is in hand. -/
  | working (e : Event)
  /-- The session has been closed, and tasks are being cancelled. -/
  | closing

structure Ingestor where
  /-- Wire, lines, queue, memory and time; it holds nothing back itself. -/
  core : Feed
  reader : Reader
  /-- The token of the task that was started last for a port. -/
  timers : Table PortId Nat
  /-- Tasks that sleep, in the order in which they were started. -/
  tasks : List Task
  /-- What tasks have that are past the point where they can be cancelled, and the time at which they were. -/
  awake : List Held
  cancelled : List Nat
  /-- How many tokens there are. -/
  issued : Nat

/-- What may happen next. The reader does one thing at a time, and so does each task. -/
inductive Move where
  /-- Bytes come in. The reader finds none of them until it has looked at the queue again. -/
  | receive (bytes : List UInt8)
  | hangUp
  | tick (t : Instant)
  /-- The reader takes the front of the queue, if there is any. -/
  | look
  | line
  /-- The reader works off what it has in hand. -/
  | work
  /-- The task for the port finds that it is due and not cancelled. -/
  | wake (id : PortId)
  /-- A task that has woken up puts its event in front of the queue. -/
  | put (i : Nat)
  | setHorizon (id : UInt64)
  /-- The reader drops the wire, what came over it and the queue. -/
  | close
  /-- The reader cancels the task that is filed for the port. -/
  | revoke (id : PortId)
  /-- The reader cancels what is left, forgets the session and may have a new wire. -/
  | reset (wire : Wire)

namespace Ingestor

open Feed

def fresh (config : FeedConfig) : Ingestor := ⟨.fresh config, .resting, ∅, [], [], [], 0⟩

/-- What is held by tasks that sleep and are not cancelled. -/
def live (s : Ingestor) : List Held := (s.tasks.filter (·.token ∉ s.cancelled)).map (·.held)

def withCore (s : Ingestor) (core : Feed) : Ingestor := { s with core }

def withReader (s : Ingestor) (reader : Reader) : Ingestor := { s with reader }

@[simp] theorem withCore_core (s : Ingestor) (core : Feed) : (s.withCore core).core = core := rfl

@[simp] theorem withReader_reader (s : Ingestor) (reader : Reader) : (s.withReader reader).reader = reader := rfl

/-! ## Timers -/

/-- Cancels what is filed for the port, whether it is still asleep or not. -/
def cancel (s : Ingestor) (id : PortId) : Ingestor :=
  match s.timers.get? id with
  | some token => { s with timers := s.timers.erase id, cancelled := token :: s.cancelled }
  | none => s

def start (s : Ingestor) (id : PortId) (e : Event) : Ingestor :=
  { s with
    tasks := s.tasks ++ [⟨s.issued, ⟨id, s.core.now + s.core.config.debounce, e⟩⟩]
    timers := s.timers.insert id s.issued
    issued := s.issued + 1 }

/-- What the task for the port has, if it is due and not cancelled. -/
def due? (s : Ingestor) (id : PortId) : Option Held := s.live.find? fun h => h.id = id && h.due ≤ s.core.now

/-- That task wakes up, and its event is stamped. It can be cancelled no more. -/
def wake (s : Ingestor) (id : PortId) : Ingestor :=
  match s.due? id with
  | some h =>
    { s with
      tasks := s.tasks.filter fun k => k.held.id ≠ id || k.token ∈ s.cancelled
      awake := s.awake ++ [{ h with due := s.core.now }] }
  | none => s

/-- It puts its event in front of the queue, for which there may be no room. -/
def put (s : Ingestor) (i : Nat) : Ingestor × List Mark :=
  match s.awake[i]? with
  | some h =>
    let core := s.core.push [h.believed]
    ({ s with core, awake := s.awake.eraseIdx i },
      (core.queue.take 1).map (.believed h.id) ++ s.core.overflow [h.believed])
  | none => (s, [])

/-! ## The reader -/

def dedupe (s : Ingestor) (id : PortId) (up : Bool) (e : Event) : Ingestor × Option Event :=
  (s.withCore (s.core.dedupe id up e).1, (s.core.dedupe id up e).2)

def debounce (s : Ingestor) (id : PortId) (up : Bool) (e : Event) : Ingestor × Option Event :=
  let s := s.cancel id
  let e := { e with debounced := some true }
  if up || s.core.config.debounce = 0 then s.dedupe id up e else (s.start id e, none)

def settle (s : Ingestor) (e : Event) : Ingestor × Option Event :=
  match e.portState? with
  | some (.portState _ dpId port up) =>
    if e.debounced = some true then s.dedupe ⟨dpId, port⟩ up e else s.debounce ⟨dpId, port⟩ up e
  | _ => (s, some e)

/-- Whoever asks has the front of the queue worked off first. -/
def look (s : Ingestor) : Ingestor :=
  match s.core.queue with
  | e :: r => (s.withCore { s.core with queue := r }).withReader (.working e)
  | [] => s.withReader .reading

def line (s : Ingestor) : Ingestor × List Mark :=
  match s.core.lines with
  | [] => (s.withReader .resting, [.exhausted s.core.atWire.fault?])
  | l :: r =>
    let s := s.withCore { s.core with lines := r }
    match record? l with
    | none => (s, [.line l none])
    | some e =>
      match s.core.sequence e with
      | .covered => (s, [.line l (some (.covered e))])
      | .gap expected got =>
        ((s.withCore (s.core.pass e)).withReader .resting, [.line l (some (.gap expected got))])
      | .next => ((s.withCore (s.core.pass e)).withReader (.working e), [.line l (some (.admitted e))])

/-- What is in hand is queued in parts, or it is settled; whoever asks goes on looking until something is
handed over. -/
def work (s : Ingestor) (e : Event) : Ingestor × List Mark :=
  match parts? e with
  | some es => ((s.withCore (s.core.push es)).withReader .looking, s.core.overflow es)
  | none =>
    ((s.settle e).1.withReader (if (s.settle e).2.isSome then .resting else .looking),
      [.settled e (s.settle e).2])

def close (s : Ingestor) : Ingestor :=
  (s.withCore { s.core with wire := .absent, lines := [], rest := [], queue := [] }).withReader .closing

def reset (s : Ingestor) (wire : Wire) : Ingestor :=
  { s with
    core := { s.core with wire, previous := ∅, horizon := none, lastId := none }
    reader := .resting
    timers := ∅
    cancelled := s.timers.values ++ s.cancelled }

/-! ## Runs -/

/-- What cannot happen where the reader is changes nothing. -/
def step (s : Ingestor) (a : Move) : Ingestor × List Mark :=
  match a, s.reader with
  | .receive _, .reading | .receive _, .closing => (s, [])
  | .receive bytes, _ => (s.withCore (s.core.receive bytes), [.received bytes])
  | .hangUp, _ => (s.withCore s.core.hangUp, [])
  | .tick t, _ => (s.withCore { s.core with now := max s.core.now t }, [])
  | .wake id, _ => (s.wake id, [])
  | .put i, _ => s.put i
  | .look, .resting | .look, .looking => (s.look, [])
  | .line, .reading => s.line
  | .work, .working e => s.work e
  | .setHorizon id, .resting => (s.withCore (s.core.setHorizon id), [.horizon id])
  | .close, .resting => (s.close, [])
  | .revoke id, .closing => (s.cancel id, [])
  | .reset wire, .closing => (s.reset wire, [.ended])
  | _, _ => (s, [])

/-- The reader is where it can look at the queue. -/
def IsReady (s : Ingestor) : Prop := s.reader = .resting ∨ s.reader = .looking

/-- What a move comes to, where it does anything. -/
inductive Happens (s : Ingestor) : Move → Ingestor × List Mark → Prop where
  | nothing (a : Move) : Happens s a (s, [])
  | receive (bytes : List UInt8) : s.reader ≠ .reading → s.reader ≠ .closing →
      Happens s (.receive bytes) (s.withCore (s.core.receive bytes), [.received bytes])
  | hangUp : Happens s .hangUp (s.withCore s.core.hangUp, [])
  | tick (t : Instant) : Happens s (.tick t) (s.withCore { s.core with now := max s.core.now t }, [])
  | wake (id : PortId) : Happens s (.wake id) (s.wake id, [])
  | put (i : Nat) : Happens s (.put i) (s.put i)
  | look : s.IsReady → Happens s .look (s.look, [])
  | line : s.reader = .reading → Happens s .line s.line
  | work {e : Event} : s.reader = .working e → Happens s .work (s.work e)
  | setHorizon (id : UInt64) : s.reader = .resting →
      Happens s (.setHorizon id) (s.withCore (s.core.setHorizon id), [.horizon id])
  | close : s.reader = .resting → Happens s .close (s.close, [])
  | revoke (id : PortId) : s.reader = .closing → Happens s (.revoke id) (s.cancel id, [])
  | reset (wire : Wire) : s.reader = .closing → Happens s (.reset wire) (s.reset wire, [.ended])

theorem happens (s : Ingestor) (a : Move) : s.Happens a (s.step a) := by
  unfold step
  cases a with
  | receive bytes =>
    cases hr : s.reader with
    | reading | closing => exact .nothing _
    | resting | looking | working => exact .receive bytes (by simp [hr]) (by simp [hr])
  | hangUp => exact .hangUp
  | tick t => exact .tick t
  | wake id => exact .wake id
  | put i => exact .put i
  | look =>
    cases hr : s.reader with
    | resting => exact .look (.inl hr)
    | looking => exact .look (.inr hr)
    | reading | working | closing => exact .nothing _
  | line =>
    cases hr : s.reader with
    | reading => exact .line hr
    | resting | looking | working | closing => exact .nothing _
  | work =>
    cases hr : s.reader with
    | working e => exact .work hr
    | resting | looking | reading | closing => exact .nothing _
  | setHorizon id =>
    cases hr : s.reader with
    | resting => exact .setHorizon id hr
    | looking | reading | working | closing => exact .nothing _
  | close =>
    cases hr : s.reader with
    | resting => exact .close hr
    | looking | reading | working | closing => exact .nothing _
  | revoke id =>
    cases hr : s.reader with
    | closing => exact .revoke id hr
    | resting | looking | reading | working => exact .nothing _
  | reset wire =>
    cases hr : s.reader with
    | closing => exact .reset wire hr
    | resting | looking | reading | working => exact .nothing _

theorem step_look {s : Ingestor} (h : s.IsReady) : s.step .look = (s.look, []) := by
  unfold step
  rcases h with h | h <;> rw [h]

theorem step_line {s : Ingestor} (h : s.reader = .reading) : s.step .line = s.line := by
  unfold step
  rw [h]

theorem step_work {s : Ingestor} {e : Event} (h : s.reader = .working e) : s.step .work = s.work e := by
  unfold step
  rw [h]

def run (s : Ingestor) (moves : List Move) : Ingestor := moves.foldl (fun s a => (s.step a).1) s

/-- What happens along a run. -/
def marks (s : Ingestor) : List Move → List Mark
  | [] => []
  | a :: r => (s.step a).2 ++ (s.step a).1.marks r

theorem run_append (s : Ingestor) (as bs : List Move) : s.run (as ++ bs) = (s.run as).run bs :=
  List.foldl_append

theorem marks_append (s : Ingestor) (as bs : List Move) : s.marks (as ++ bs) = s.marks as ++ (s.run as).marks bs := by
  induction as generalizing s with
  | nil => rfl
  | cons a as ih => rw [List.cons_append, marks, ih, ← List.append_assoc]; rfl

/-! ## One event -/

/-- What becomes of an event by itself. -/
inductive Settles (s : Ingestor) (e : Event) : Ingestor × Option Event → Prop where
  /-- It is not about a port. -/
  | other : e.port? = none → Settles s e (s, some e)
  /-- It was held. -/
  | believed {id : PortId} {up : Bool} : e.port? = some (id, up) → e.debounced = some true →
      Settles s e (s.dedupe id up e)
  /-- It need not be held. -/
  | passed {id : PortId} {up : Bool} : e.port? = some (id, up) → e.debounced ≠ some true →
      up = true ∨ s.core.config.debounce = 0 → Settles s e ((s.cancel id).dedupe id up e.believed)
  | held {id : PortId} : e.port? = some (id, false) → e.debounced ≠ some true →
      s.core.config.debounce ≠ 0 → Settles s e ((s.cancel id).start id e.believed, none)

/-- Only the task and what is filed for it change. -/
theorem cancel_same (s : Ingestor) (id : PortId) :
    (s.cancel id).core = s.core ∧ (s.cancel id).reader = s.reader ∧ (s.cancel id).tasks = s.tasks ∧
      (s.cancel id).awake = s.awake := by
  unfold cancel
  split <;> exact ⟨rfl, rfl, rfl, rfl⟩

theorem settles (s : Ingestor) (e : Event) : s.Settles e (s.settle e) := by
  unfold settle
  split
  next r d p up hstate =>
    have hport : e.port? = some (⟨d, p⟩, up) := by simp [Event.port?, hstate]
    split
    next hd => exact .believed hport hd
    next hd =>
      unfold debounce
      dsimp only
      rw [(s.cancel_same ⟨d, p⟩).1]
      split
      next hnow => exact .passed hport hd (by simpa using hnow)
      next hnow =>
        obtain ⟨rfl, hw⟩ : up = false ∧ s.core.config.debounce ≠ 0 := by simpa using hnow
        exact .held hport hd hw
  next hno =>
    refine .other ?_
    unfold Event.port?
    split
    next hstate => exact absurd hstate (hno _ _ _ _)
    next => rfl

/-! ## What the reader leaves to the tasks -/

theorem look_eq (s : Ingestor) : ∃ core reader, s.look = (s.withCore core).withReader reader := by
  unfold look
  split <;> exact ⟨_, _, rfl⟩

theorem line_eq (s : Ingestor) : ∃ core reader, s.line.1 = (s.withCore core).withReader reader := by
  unfold line
  split
  · exact ⟨_, _, rfl⟩
  · dsimp only
    split
    · exact ⟨_, _, rfl⟩
    · split <;> exact ⟨_, _, rfl⟩

theorem work_eq (s : Ingestor) (e : Event) :
    (∃ core reader, (s.work e).1 = (s.withCore core).withReader reader) ∨
      ∃ reader, (s.work e).1 = (s.settle e).1.withReader reader := by
  unfold work
  split
  · exact .inl ⟨_, _, rfl⟩
  · exact .inr ⟨_, rfl⟩

/-! ## Every sleeping task can be reached -/

structure Tethered (s : Ingestor) : Prop where
  /-- What is filed for a port is not the token of a task for another port. -/
  own : ∀ id token, s.timers.get? id = some token → ∀ k ∈ s.tasks, k.token = token → k.held.id = id
  /-- A task that is not cancelled is the one that is filed for its port. -/
  reached : ∀ k ∈ s.tasks, k.token ∉ s.cancelled → s.timers.get? k.held.id = some k.token
  issued_tasks : ∀ k ∈ s.tasks, k.token < s.issued
  issued_timers : ∀ id token, s.timers.get? id = some token → token < s.issued
  issued_cancelled : ∀ token ∈ s.cancelled, token < s.issued
  /-- No two tasks that are not cancelled are for one port. -/
  once : s.live.Pairwise fun a b => a.id ≠ b.id

variable {s : Ingestor} {id : PortId}

theorem mem_live {h : Held} : h ∈ s.live ↔ ∃ k ∈ s.tasks, k.token ∉ s.cancelled ∧ k.held = h := by
  simp [live, and_assoc]

namespace Tethered

theorem fresh (config : FeedConfig) : (Ingestor.fresh config).Tethered where
  own _ _ _ _ hk := by cases hk
  reached _ hk := by cases hk
  issued_tasks _ hk := by cases hk
  issued_timers _ _ h := by cases h
  issued_cancelled _ h := by cases h
  once := .nil

/-- Only tasks and tokens matter. -/
theorem congr {t : Ingestor} (h : s.Tethered) (htimers : t.timers = s.timers) (htasks : t.tasks = s.tasks)
    (hcancelled : t.cancelled = s.cancelled) (hissued : t.issued = s.issued) : t.Tethered := by
  obtain ⟨_, _, _, _, _, _, _⟩ := s
  obtain ⟨_, _, _, _, _, _, _⟩ := t
  cases htimers
  cases htasks
  cases hcancelled
  cases hissued
  exact ⟨h.own, h.reached, h.issued_tasks, h.issued_timers, h.issued_cancelled, h.once⟩

/-- The token that is filed for a port tells the live task for it from the others. -/
theorem token_eq_iff (h : s.Tethered) {token : Nat} (hf : s.timers.get? id = some token) {k : Task}
    (hk : k ∈ s.tasks) (hlive : k.token ∉ s.cancelled) : k.token = token ↔ k.held.id = id := by
  refine ⟨h.own id token hf k hk, fun hid => ?_⟩
  have hreached := h.reached k hk hlive
  rw [hid, hf] at hreached
  exact (Option.some.inj hreached).symm

end Tethered

theorem live_cancel (h : s.Tethered) (id : PortId) : (s.cancel id).live = s.live.filter (·.id ≠ id) := by
  unfold cancel
  split
  next token hf =>
    unfold live
    rw [List.filter_map, List.filter_filter]
    congr 1
    refine List.filter_congr fun k hk => ?_
    by_cases hlive : k.token ∈ s.cancelled
    · simp [hlive]
    · simp [hlive, h.token_eq_iff hf hk hlive]
  next hf =>
    refine (List.filter_eq_self.mpr fun x hx => ?_).symm
    obtain ⟨k, hk, hlive, rfl⟩ := mem_live.mp hx
    have hreached := h.reached k hk hlive
    have hne : k.held.id ≠ id := fun hid => by rw [hid, hf] at hreached; cases hreached
    exact decide_eq_true hne

theorem live_start (h : s.Tethered) (id : PortId) (e : Event) :
    (s.start id e).live = s.live ++ [⟨id, s.core.now + s.core.config.debounce, e⟩] := by
  have hnew : s.issued ∉ s.cancelled := fun hc => Nat.lt_irrefl _ (h.issued_cancelled _ hc)
  have hone : [(⟨s.issued, ⟨id, s.core.now + s.core.config.debounce, e⟩⟩ : Task)].filter
      (·.token ∉ s.cancelled) = [⟨s.issued, ⟨id, s.core.now + s.core.config.debounce, e⟩⟩] :=
    List.filter_eq_self.mpr (by simp [hnew])
  rw [live, start, List.filter_append, hone, List.map_append]
  rfl

theorem due?_eq_some {h : Held} (hdue : s.due? id = some h) : h ∈ s.live ∧ h.id = id ∧ h.due ≤ s.core.now := by
  refine ⟨List.mem_of_find?_eq_some hdue, ?_⟩
  simpa using List.find?_some hdue

theorem due?_eq_none (hdue : s.due? id = none) : ∀ h ∈ s.live, h.id = id → s.core.now < h.due := by
  intro h hh hid
  simpa [hid] using List.find?_eq_none.mp hdue h hh

/-- The task that wakes up is the only one that is live for its port. -/
theorem wake_eq (s : Ingestor) (id : PortId) :
    (s.wake id = s ∧ s.due? id = none) ∨
      ∃ h, s.due? id = some h ∧ (s.wake id).core = s.core ∧ (s.wake id).reader = s.reader ∧
        (s.wake id).live = s.live.filter (·.id ≠ id) ∧
        (s.wake id).awake = s.awake ++ [{ h with due := s.core.now }] := by
  unfold wake
  split
  next h hdue =>
    refine .inr ⟨h, hdue, rfl, rfl, ?_, rfl⟩
    unfold live
    rw [List.filter_map, List.filter_filter, List.filter_filter]
    congr 1
    refine List.filter_congr fun k _ => ?_
    by_cases hlive : k.token ∈ s.cancelled <;> simp [hlive]
  next hdue => exact .inl ⟨rfl, hdue⟩

theorem wake_core (s : Ingestor) (id : PortId) : (s.wake id).core = s.core := by
  rcases s.wake_eq id with ⟨hsame, -⟩ | ⟨_, -, hcore, -⟩
  · rw [hsame]
  · exact hcore

theorem wake_reader (s : Ingestor) (id : PortId) : (s.wake id).reader = s.reader := by
  rcases s.wake_eq id with ⟨hsame, -⟩ | ⟨_, -, -, hreader, -⟩
  · rw [hsame]
  · exact hreader

namespace Tethered

theorem cancel (h : s.Tethered) (id : PortId) : (s.cancel id).Tethered := by
  have honce : (s.cancel id).live.Pairwise fun a b => a.id ≠ b.id := by
    rw [live_cancel h]
    exact h.once.filter _
  unfold Ingestor.cancel at honce ⊢
  split
  next token hf =>
    refine ⟨fun x t hx => ?_, fun k hk hlive => ?_, h.issued_tasks, fun x t hx => ?_, fun t ht => ?_, ?_⟩
    · rw [Table.get?_erase] at hx
      split at hx
      · cases hx
      · exact h.own x t hx
    · obtain ⟨hne, hlive⟩ := not_or.mp (mt List.mem_cons.mpr hlive)
      rw [Table.get?_erase, if_neg (mt (h.token_eq_iff hf hk hlive).mpr hne)]
      exact h.reached k hk hlive
    · rw [Table.get?_erase] at hx
      split at hx
      · cases hx
      · exact h.issued_timers x t hx
    · rcases List.mem_cons.mp ht with rfl | ht
      · exact h.issued_timers id t hf
      · exact h.issued_cancelled t ht
    · rwa [hf] at honce
  next => exact h

/-- A port is held again only when nothing is live for it. -/
theorem start (h : s.Tethered) (hid : ∀ x ∈ s.live, x.id ≠ id) (e : Event) :
    (s.start id e).Tethered := by
  refine ⟨fun x t hx k hk hkt => ?_, fun k hk hlive => ?_, fun k hk => ?_, fun x t hx => ?_,
    fun t ht => Nat.lt_succ_of_lt (h.issued_cancelled t ht), ?_⟩
  · simp only [Ingestor.start, Table.get?_insert] at hx
    rcases List.mem_append.mp hk with hk | hk
    · have hold := h.issued_tasks k hk
      split at hx
      · -- the new token is nobody else's
        cases hx
        omega
      · exact h.own x t hx k hk hkt
    · cases List.mem_singleton.mp hk
      split at hx
      next hx' => exact hx'.symm
      next =>
        -- nor was it filed for another port before
        have hfiled := h.issued_timers x t hx
        subst hkt
        exact absurd hfiled (Nat.lt_irrefl _)
  · simp only [Ingestor.start, Table.get?_insert]
    rcases List.mem_append.mp hk with hk | hk
    · rw [if_neg (hid k.held (mem_live.mpr ⟨k, hk, hlive, rfl⟩))]
      exact h.reached k hk hlive
    · cases List.mem_singleton.mp hk
      exact if_pos rfl
  · rcases List.mem_append.mp hk with hk | hk
    · exact Nat.lt_succ_of_lt (h.issued_tasks k hk)
    · cases List.mem_singleton.mp hk
      exact Nat.lt_succ_self _
  · simp only [Ingestor.start, Table.get?_insert] at hx
    split at hx
    · cases hx; exact Nat.lt_succ_self _
    · exact Nat.lt_succ_of_lt (h.issued_timers x t hx)
  · rw [live_start h]
    refine List.pairwise_append.mpr ⟨h.once, List.pairwise_singleton .., fun a ha b hb => ?_⟩
    rw [List.mem_singleton.mp hb]
    exact hid a ha

theorem wake (h : s.Tethered) (id : PortId) : (s.wake id).Tethered := by
  have honce : (s.wake id).live.Pairwise fun a b => a.id ≠ b.id := by
    rcases s.wake_eq id with ⟨hsame, -⟩ | ⟨_, -, -, -, hlive, -⟩
    · rw [hsame]
      exact h.once
    · rw [hlive]
      exact h.once.filter _
  unfold Ingestor.wake at honce ⊢
  split
  next x hfind =>
    rw [hfind] at honce
    have hasleep : ∀ k ∈ s.tasks.filter fun k => k.held.id ≠ id || k.token ∈ s.cancelled, k ∈ s.tasks :=
      fun k hk => (List.mem_filter.mp hk).1
    exact ⟨fun x t hx k hk => h.own x t hx k (hasleep k hk), fun k hk => h.reached k (hasleep k hk),
      fun k hk => h.issued_tasks k (hasleep k hk), h.issued_timers, h.issued_cancelled, honce⟩
  next => exact h

/-- All that is filed is cancelled, and so is every task. -/
theorem reset (h : s.Tethered) (wire : Wire) : (s.reset wire).Tethered ∧ (s.reset wire).live = [] := by
  have hnone : ∀ k ∈ s.tasks, k.token ∈ s.timers.values ++ s.cancelled := by
    intro k hk
    by_cases hlive : k.token ∈ s.cancelled
    · exact List.mem_append_right _ hlive
    · exact List.mem_append_left _ (Table.mem_values.mpr ⟨_, h.reached k hk hlive⟩)
  have hlive : (s.reset wire).live = [] := by
    refine List.eq_nil_iff_forall_not_mem.mpr fun x hx => ?_
    obtain ⟨k, hk, hlive, -⟩ := mem_live.mp hx
    exact hlive (hnone k hk)
  refine ⟨⟨fun _ _ hx => (by cases hx), fun k hk hlive => absurd (hnone k hk) hlive, h.issued_tasks,
    fun _ _ hx => (by cases hx), fun t ht => ?_, hlive ▸ .nil⟩, hlive⟩
  rcases List.mem_append.mp ht with ht | ht
  · obtain ⟨x, hx⟩ := Table.mem_values.mp ht
    exact h.issued_timers x t hx
  · exact h.issued_cancelled t ht

theorem settle (h : s.Tethered) (e : Event) : (s.settle e).1.Tethered := by
  have hsettles := s.settles e
  generalize s.settle e = r at *
  cases hsettles with
  | other => exact h
  | believed => exact h.congr rfl rfl rfl rfl
  | @passed id => exact (h.cancel id).congr rfl rfl rfl rfl
  | @held id =>
    refine (h.cancel id).start (fun x hx => ?_) _
    rw [live_cancel h] at hx
    exact of_decide_eq_true (List.mem_filter.mp hx).2

theorem put (h : s.Tethered) (i : Nat) : (s.put i).1.Tethered := by
  unfold Ingestor.put
  split
  · exact h.congr rfl rfl rfl rfl
  · exact h

/-- Whatever happens next, every sleeping task can be reached. -/
theorem step (h : s.Tethered) (a : Move) : (s.step a).1.Tethered := by
  have hmove := s.happens a
  generalize s.step a = r at *
  cases hmove with
  | nothing => exact h
  | receive | hangUp | tick | setHorizon | close => exact h.congr rfl rfl rfl rfl
  | wake id => exact h.wake id
  | put i => exact h.put i
  | look =>
    obtain ⟨core, reader, hlook⟩ := s.look_eq
    rw [hlook]
    exact h.congr rfl rfl rfl rfl
  | line =>
    obtain ⟨core, reader, hline⟩ := s.line_eq
    rw [hline]
    exact h.congr rfl rfl rfl rfl
  | @work e =>
    rcases s.work_eq e with ⟨core, reader, hwork⟩ | ⟨reader, hwork⟩ <;> rw [hwork]
    · exact h.congr rfl rfl rfl rfl
    · exact (h.settle e).congr rfl rfl rfl rfl
  | revoke id => exact h.cancel id
  | reset wire => exact (h.reset wire).1

theorem run (h : s.Tethered) (moves : List Move) : (s.run moves).Tethered := by
  induction moves generalizing s with
  | nil => exact h
  | cons a moves ih => exact ih (h.step a)

end Tethered

/-! ## What tasks hold -/

/-- What a task holds, cancelled or not, is a down of its port. -/
structure Earned (s : Ingestor) : Prop where
  tasks : ∀ k ∈ s.tasks, k.held.event.Ripe k.held.id
  awake : ∀ h ∈ s.awake, h.event.Ripe h.id

namespace Earned

theorem fresh (config : FeedConfig) : (Ingestor.fresh config).Earned :=
  ⟨fun _ hk => (by cases hk), fun _ hh => (by cases hh)⟩

theorem congr {t : Ingestor} (h : s.Earned) (htasks : t.tasks = s.tasks) (hawake : t.awake = s.awake) : t.Earned :=
  ⟨htasks ▸ h.tasks, hawake ▸ h.awake⟩

theorem live (h : s.Earned) : ∀ x ∈ s.live, x.event.Ripe x.id := by
  intro x hx
  obtain ⟨k, hk, -, rfl⟩ := mem_live.mp hx
  exact h.tasks k hk

theorem wake (h : s.Earned) (id : PortId) : (s.wake id).Earned := by
  unfold Ingestor.wake
  split
  next x hfind =>
    refine ⟨fun k hk => h.tasks k (List.mem_filter.mp hk).1, fun y hy => ?_⟩
    rcases List.mem_append.mp hy with hy | hy
    · exact h.awake y hy
    · rw [List.mem_singleton.mp hy]
      exact h.live x (due?_eq_some hfind).1
  next => exact h

theorem put (h : s.Earned) (i : Nat) : (s.put i).1.Earned := by
  unfold Ingestor.put
  split
  · exact ⟨h.tasks, fun x hx => h.awake x (List.mem_of_mem_eraseIdx hx)⟩
  · exact h

theorem cancel (h : s.Earned) (id : PortId) : (s.cancel id).Earned :=
  have hsame := s.cancel_same id
  h.congr hsame.2.2.1 hsame.2.2.2

theorem settle (h : s.Earned) (e : Event) : (s.settle e).1.Earned := by
  have hsettles := s.settles e
  generalize s.settle e = r at *
  cases hsettles with
  | other => exact h
  | believed => exact h.congr rfl rfl
  | @passed id => exact (h.cancel id).congr rfl rfl
  | @held id hport =>
    refine ⟨fun k hk => ?_, (h.cancel id).awake⟩
    rcases List.mem_append.mp hk with hk | hk
    · exact (h.cancel id).tasks k hk
    · rw [List.mem_singleton.mp hk]
      exact ⟨rfl, hport⟩

theorem step (h : s.Earned) (a : Move) : (s.step a).1.Earned := by
  have hmove := s.happens a
  generalize s.step a = r at *
  cases hmove with
  | nothing => exact h
  | receive | hangUp | tick | setHorizon | close | reset => exact h.congr rfl rfl
  | wake id => exact h.wake id
  | put i => exact h.put i
  | look =>
    obtain ⟨core, reader, hlook⟩ := s.look_eq
    rw [hlook]
    exact h.congr rfl rfl
  | line =>
    obtain ⟨core, reader, hline⟩ := s.line_eq
    rw [hline]
    exact h.congr rfl rfl
  | @work e =>
    rcases s.work_eq e with ⟨core, reader, hwork⟩ | ⟨reader, hwork⟩ <;> rw [hwork]
    · exact h.congr rfl rfl
    · exact (h.settle e).congr rfl rfl
  | revoke id => exact h.cancel id

theorem run (h : s.Earned) (moves : List Move) : (s.run moves).Earned := by
  induction moves generalizing s with
  | nil => exact h
  | cons a moves ih => exact ih (h.step a)

end Earned
end Ingestor
end Fabric
