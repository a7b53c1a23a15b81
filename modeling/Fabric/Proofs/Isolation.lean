import Fabric.Proofs.Alternation

/-! What a session leaves to the next. All that an ingestor does follows from its feed, from where its reader is
and from what its tasks hold, so two ingestors that agree in these cannot be told apart (`Alike`); the tokens and
the cancelled tasks that an earlier session left behind make no difference. When a session begins nothing is with a
task that sleeps, and the feed is new but for its queue: the queue is emptied before the tasks are cancelled, and a
task that wakes up in between, or had woken up before, still puts its down there. So the session is that of a new
ingestor to which just these downs have been given (`sessions_isolated`), and of a new one as it is if there are
none. -/

namespace Fabric

open Feed

/-- Nothing comes in over a wire, and none is given to the ingestor. -/
def Move.isOffline : Move → Bool
  | receive _ => false
  | reset wire => wire = .absent
  | _ => true

namespace Ingestor

variable {s t : Ingestor} {e : Event} {id : PortId} {a : Move} {moves : List Move}

/-! ## Ingestors that cannot be told apart -/

/-- Feed, reader and what is with tasks are the same. -/
structure Alike (s t : Ingestor) : Prop where
  left : s.Tethered
  right : t.Tethered
  core : s.core = t.core
  reader : s.reader = t.reader
  live : s.live = t.live
  awake : s.awake = t.awake

namespace Alike

theorem withCore (h : s.Alike t) (core : Feed) : (s.withCore core).Alike (t.withCore core) :=
  ⟨h.left.congr rfl rfl rfl rfl, h.right.congr rfl rfl rfl rfl, rfl, h.reader, h.live, h.awake⟩

theorem withReader (h : s.Alike t) (reader : Reader) : (s.withReader reader).Alike (t.withReader reader) :=
  ⟨h.left.congr rfl rfl rfl rfl, h.right.congr rfl rfl rfl rfl, h.core, rfl, h.live, h.awake⟩

theorem cancel (h : s.Alike t) (id : PortId) : (s.cancel id).Alike (t.cancel id) := by
  obtain ⟨hcore, hreader, -, hawake⟩ := s.cancel_same id
  obtain ⟨hcore', hreader', -, hawake'⟩ := t.cancel_same id
  exact ⟨h.left.cancel id, h.right.cancel id, by rw [hcore, hcore', h.core], by rw [hreader, hreader', h.reader],
    by rw [live_cancel h.left, live_cancel h.right, h.live], by rw [hawake, hawake', h.awake]⟩

theorem start (h : s.Alike t) (hid : ∀ x ∈ s.live, x.id ≠ id) (e : Event) : (s.start id e).Alike (t.start id e) where
  left := h.left.start hid e
  right := h.right.start (h.live ▸ hid) e
  core := h.core
  reader := h.reader
  live := by rw [live_start h.left, live_start h.right, h.live, h.core]
  awake := h.awake

theorem dedupe (h : s.Alike t) (id : PortId) (up : Bool) (e : Event) :
    (s.dedupe id up e).1.Alike (t.dedupe id up e).1 ∧ (s.dedupe id up e).2 = (t.dedupe id up e).2 := by
  unfold Ingestor.dedupe
  rw [h.core]
  exact ⟨h.withCore _, rfl⟩

theorem settle (h : s.Alike t) (e : Event) :
    (s.settle e).1.Alike (t.settle e).1 ∧ (s.settle e).2 = (t.settle e).2 := by
  unfold Ingestor.settle
  split
  next _ d p up _ =>
    split
    · exact h.dedupe ⟨d, p⟩ up e
    · have hcancel := h.cancel ⟨d, p⟩
      unfold Ingestor.debounce
      dsimp only
      rw [hcancel.core]
      split
      · exact hcancel.dedupe ⟨d, p⟩ up _
      · refine ⟨hcancel.start (fun x hx => ?_) _, rfl⟩
        rw [live_cancel h.left] at hx
        exact of_decide_eq_true (List.mem_filter.mp hx).2
  next => exact ⟨h, rfl⟩

theorem wake (h : s.Alike t) (id : PortId) : (s.wake id).Alike (t.wake id) := by
  have hdue : s.due? id = t.due? id := by rw [due?, due?, h.live, h.core]
  rcases s.wake_eq id with ⟨hsame, hnone⟩ | ⟨x, hx, hcore, hreader, hlive, hawake⟩ <;>
    rcases t.wake_eq id with ⟨hsame', hnone'⟩ | ⟨y, hy, hcore', hreader', hlive', hawake'⟩
  · rwa [hsame, hsame']
  · simp [← hdue, hnone] at hy
  · simp [hdue, hnone'] at hx
  · obtain rfl : x = y := Option.some.inj (hx.symm.trans (hdue.trans hy))
    exact ⟨h.left.wake id, h.right.wake id, by rw [hcore, hcore', h.core], by rw [hreader, hreader', h.reader],
      by rw [hlive, hlive', h.live], by rw [hawake, hawake', h.awake, h.core]⟩

theorem put (h : s.Alike t) (i : Nat) : (s.put i).1.Alike (t.put i).1 ∧ (s.put i).2 = (t.put i).2 := by
  unfold Ingestor.put
  rw [h.awake, h.core]
  split
  · exact ⟨⟨h.left.congr rfl rfl rfl rfl, h.right.congr rfl rfl rfl rfl, rfl, h.reader, h.live, rfl⟩, rfl⟩
  · exact ⟨h, rfl⟩

theorem look (h : s.Alike t) : s.look.Alike t.look := by
  unfold Ingestor.look
  rw [h.core]
  split
  · exact (h.withCore _).withReader _
  · exact h.withReader _

theorem line (h : s.Alike t) : s.line.1.Alike t.line.1 ∧ s.line.2 = t.line.2 := by
  unfold Ingestor.line
  rw [h.core]
  split
  next => exact ⟨h.withReader _, rfl⟩
  next l r _ =>
    have hread := h.withCore { t.core with lines := r }
    simp only [withCore_core]
    split
    · exact ⟨hread, rfl⟩
    · split
      · exact ⟨hread, rfl⟩
      · exact ⟨(hread.withCore _).withReader _, rfl⟩
      · exact ⟨(hread.withCore _).withReader _, rfl⟩

theorem work (h : s.Alike t) (e : Event) : (s.work e).1.Alike (t.work e).1 ∧ (s.work e).2 = (t.work e).2 := by
  obtain ⟨hsettle, hout⟩ := h.settle e
  unfold Ingestor.work
  rw [h.core, hout]
  split
  · exact ⟨(h.withCore _).withReader _, rfl⟩
  · exact ⟨hsettle.withReader _, rfl⟩

theorem reset (h : s.Alike t) (wire : Wire) : (s.reset wire).Alike (t.reset wire) where
  left := (h.left.reset wire).1
  right := (h.right.reset wire).1
  core := by rw [Ingestor.reset, Ingestor.reset, h.core]
  reader := rfl
  live := (h.left.reset wire).2.trans (h.right.reset wire).2.symm
  awake := h.awake

/-- The same happens next. -/
theorem step (h : s.Alike t) (a : Move) : (s.step a).1.Alike (t.step a).1 ∧ (s.step a).2 = (t.step a).2 := by
  have hreader := h.reader
  unfold Ingestor.step
  rw [hreader]
  split
  · exact ⟨h, rfl⟩
  · exact ⟨h, rfl⟩
  · rw [h.core]; exact ⟨h.withCore _, rfl⟩
  · rw [h.core]; exact ⟨h.withCore _, rfl⟩
  · rw [h.core]; exact ⟨h.withCore _, rfl⟩
  · exact ⟨h.wake _, rfl⟩
  · exact h.put _
  · exact ⟨h.look, rfl⟩
  · exact ⟨h.look, rfl⟩
  · exact h.line
  · exact h.work _
  · rw [h.core]; exact ⟨h.withCore _, rfl⟩
  · unfold Ingestor.close
    rw [h.core]
    exact ⟨(h.withCore _).withReader _, rfl⟩
  · exact ⟨h.cancel _, rfl⟩
  · exact ⟨h.reset _, rfl⟩
  · exact ⟨h, rfl⟩

theorem run (h : s.Alike t) (moves : List Move) :
    (s.run moves).Alike (t.run moves) ∧ s.marks moves = t.marks moves := by
  induction moves generalizing s t with
  | nil => exact ⟨h, rfl⟩
  | cons a moves ih =>
    obtain ⟨hstep, hmarks⟩ := h.step a
    obtain ⟨hrun, hrest⟩ := ih hstep
    exact ⟨hrun, by rw [marks, marks, hmarks, hrest]⟩

end Alike

/-- What happens, what is queued and what is known to have come is the same from now on. -/
structure Indistinct (s t : Ingestor) : Prop where
  marks : ∀ moves, s.marks moves = t.marks moves
  queue : ∀ moves, (s.run moves).core.queue = (t.run moves).core.queue
  lastId : ∀ moves, (s.run moves).core.lastId = (t.run moves).core.lastId

theorem Alike.indistinct (h : s.Alike t) : s.Indistinct t where
  marks moves := (h.run moves).2
  queue moves := by rw [(h.run moves).1.core]
  lastId moves := by rw [(h.run moves).1.core]

/-! ## What is left when a session is over -/

/-- What holds of every ingestor. While its session is closed, nothing but downs that were held can be queued. -/
structure Kept (config : FeedConfig) (s : Ingestor) : Prop where
  config : s.core.config = config
  held : s.core.held = []
  closing : s.reader = .closing → s.core.lines = [] ∧ s.core.rest = [] ∧ ∀ e ∈ s.core.queue, ∃ x, e.Ripe x

namespace Kept

variable {config : FeedConfig}

theorem fresh (config : FeedConfig) : (Ingestor.fresh config).Kept config := ⟨rfl, rfl, nofun⟩

/-- The session goes on. -/
theorem of_open (h : s.Kept config) (hconfig : t.core.config = s.core.config) (hheld : t.core.held = s.core.held)
    (hopen : t.reader ≠ .closing) : t.Kept config :=
  ⟨hconfig.trans h.config, hheld.trans h.held, fun hclosing => absurd hclosing hopen⟩

/-- What comes of wire and time does not matter. -/
theorem of_same (h : s.Kept config) (wire : Wire) (now : Instant) (hreader : t.reader = s.reader)
    (hcore : t.core = { s.core with wire, now }) : t.Kept config := by
  refine ⟨hcore ▸ h.config, hcore ▸ h.held, fun hclosing => ?_⟩
  rw [hcore]
  exact h.closing (hreader ▸ hclosing)

theorem put (h : s.Kept config) (he : s.Earned) (i : Nat) : (s.put i).1.Kept config := by
  unfold Ingestor.put
  split
  next x hx =>
    refine ⟨h.config, h.held, fun hclosing => ?_⟩
    obtain ⟨hlines, hrest, hqueue⟩ := h.closing hclosing
    refine ⟨hlines, hrest, fun e he' => ?_⟩
    rcases List.mem_cons.mp (List.mem_of_mem_take he') with rfl | he'
    · exact ⟨x.id, he.awake x (List.mem_of_getElem? hx)⟩
    · exact hqueue e he'
  next => exact h

theorem line (h : s.Kept config) (hreader : s.reader = .reading) : s.line.1.Kept config := by
  have hopen : s.reader ≠ .closing := by rw [hreader]; exact nofun
  unfold Ingestor.line
  split
  · exact h.of_open rfl rfl nofun
  · dsimp only
    split
    · exact h.of_open rfl rfl hopen
    · split
      · exact h.of_open rfl rfl hopen
      · exact h.of_open rfl rfl nofun
      · exact h.of_open rfl rfl nofun

theorem work (h : s.Kept config) (e : Event) : (s.work e).1.Kept config := by
  unfold Ingestor.work
  split
  · exact h.of_open rfl rfl nofun
  · have hopen : (if (s.settle e).2.isSome then Reader.resting else .looking) ≠ .closing := by
      split <;> exact nofun
    have hcore : (s.settle e).1.core.config = s.core.config ∧ (s.settle e).1.core.held = s.core.held := by
      have hsettles := s.settles e
      generalize s.settle e = r at *
      cases hsettles with
      | other | believed => exact ⟨rfl, rfl⟩
      | @passed x | @held x =>
        rw [← (s.cancel_same x).1]
        exact ⟨rfl, rfl⟩
    exact h.of_open hcore.1 hcore.2 hopen

theorem step (h : s.Kept config) (he : s.Earned) (a : Move) : (s.step a).1.Kept config := by
  have hmove := s.happens a
  generalize s.step a = r at *
  cases hmove with
  | nothing => exact h
  | receive _ _ hopen => exact h.of_open rfl rfl hopen
  | hangUp =>
    obtain ⟨w, hw⟩ := hangUp_eq s.core
    exact h.of_same w s.core.now rfl hw
  | tick => exact h.of_same s.core.wire _ rfl rfl
  | wake id => exact h.of_same _ _ (s.wake_reader id) (s.wake_core id)
  | put i => exact h.put he i
  | look =>
    unfold look
    split <;> exact h.of_open rfl rfl (by simp [Ingestor.withReader])
  | line hreader => exact h.line hreader
  | work => exact h.work _
  | setHorizon _ hreader => exact h.of_open rfl rfl (by simp [Ingestor.withCore, hreader])
  | close => exact ⟨h.config, h.held, fun _ => ⟨rfl, rfl, List.forall_mem_nil _⟩⟩
  | revoke id =>
    obtain ⟨hcore, hreader, -⟩ := s.cancel_same id
    exact h.of_same _ _ hreader hcore
  | reset => exact h.of_open rfl rfl (by simp [Ingestor.reset])

theorem run (h : s.Kept config) (he : s.Earned) (moves : List Move) : (s.run moves).Kept config := by
  induction moves generalizing s with
  | nil => exact h
  | cons a moves ih => exact ih (h.step he a) (he.step a)

end Kept

/-- With no task awake while its session is closed, nothing is queued then. -/
theorem step_emptied (h : s.reader = .closing → s.core.queue = []) (hidle : s.reader = .closing → s.awake = [])
    (a : Move) : (s.step a).1.reader = .closing → (s.step a).1.core.queue = [] := by
  by_cases hclosing : s.reader = .closing
  · have hqueue := h hclosing
    have hawake := hidle hclosing
    have hmove := s.happens a
    generalize s.step a = r at *
    intro _
    cases hmove with
    | nothing | tick | setHorizon | reset => exact hqueue
    | receive _ _ hopen => exact absurd hclosing hopen
    | hangUp => exact (queue_hangUp s.core).trans hqueue
    | wake id => rwa [s.wake_core id]
    | put i =>
      unfold put
      rw [hawake]
      exact hqueue
    | look hready => rcases hready with hreader | hreader <;> simp [hclosing] at hreader
    | line hreader => simp [hclosing] at hreader
    | work hreader => simp [hclosing] at hreader
    | close => rfl
    | revoke id => rwa [(s.cancel_same id).1]
  · by_cases ha : a.isWithin = true
    · exact fun hafter => absurd hafter (step_open hclosing ha)
    · -- only closing the session closes it
      cases a with
      | close =>
        have hmove := s.happens .close
        generalize s.step .close = r at *
        cases hmove with
        | nothing => exact fun hafter => absurd hafter hclosing
        | close => exact fun _ => rfl
      | _ => exact absurd rfl ha

theorem run_emptied (h : s.reader ≠ .closing)
    (hidle : ∀ pre, pre <+: moves → (s.run pre).reader = .closing → (s.run pre).awake = []) :
    (s.run moves).reader = .closing → (s.run moves).core.queue = [] := by
  induction moves using List.reverseRecOn with
  | nil => exact fun hclosing => absurd hclosing h
  | append_singleton moves a ih =>
    rw [run_snoc]
    exact step_emptied (ih fun pre hpre => hidle pre (hpre.trans (List.prefix_append _ _)))
      (hidle moves (List.prefix_append _ _)) a

/-! ## Without a wire -/

/-- There is no wire, nothing came over one, and no more than this is left to be worked off. -/
structure Offline (left : List Event) (s : Ingestor) : Prop where
  wire : s.core.wire = .absent
  lines : s.core.lines = []
  lastId : s.core.lastId = none
  live : s.live = []
  ahead : ∀ e ∈ s.ahead, e ∈ left
  awake : ∀ h ∈ s.awake, h.believed ∈ left

/-- That there is no wire, or one of the events. -/
def Admits (left : List Event) (d : Delivery) : Prop := d = .fault .notConnected ∨ ∃ e ∈ left, d = .event e

namespace Offline

variable {left : List Event}

theorem congr (h : s.Offline left) (now : Instant) (horizon : Option UInt64)
    (hcore : t.core = { s.core with now, horizon }) (hreader : t.reader = s.reader) (hlive : t.live = s.live)
    (hawake : t.awake = s.awake) : t.Offline left where
  wire := hcore ▸ h.wire
  lines := hcore ▸ h.lines
  lastId := hcore ▸ h.lastId
  live := hlive.trans h.live
  ahead := by
    have hahead : t.ahead = s.ahead := by rw [Ingestor.ahead, Ingestor.ahead, hcore, hreader]
    rw [hahead]
    exact h.ahead
  awake := hawake ▸ h.awake

theorem put (h : s.Offline left) (i : Nat) : (s.put i).1.Offline left ∧ (s.put i).2.flatMap Mark.told = [] := by
  unfold Ingestor.put
  split
  next x hx =>
    have hawake : ∀ y ∈ s.awake.eraseIdx i, y.believed ∈ left := fun y hy => h.awake y (List.mem_of_mem_eraseIdx hy)
    refine ⟨⟨h.wire, h.lines, h.lastId, h.live, fun e he => ?_, hawake⟩, ?_⟩
    · rcases List.mem_append.mp he with he | he
      · exact h.ahead e (List.mem_append_left _ he)
      · rcases List.mem_cons.mp (List.mem_of_mem_take he) with rfl | he
        · exact h.awake x (List.mem_of_getElem? hx)
        · exact h.ahead e (List.mem_append_right _ he)
    · rw [List.flatMap_append, overflow, told_lost, List.flatMap_map]
      simp [Mark.told]
  next => exact ⟨h, rfl⟩

/-- There is no line to be read. -/
theorem line (h : s.Offline left) (hreader : s.reader = .reading) :
    s.line.1.Offline left ∧ ∀ d ∈ s.line.2.flatMap Mark.told, Admits left d := by
  have hline : s.line = (s.withReader .resting, [.exhausted (some .notConnected)]) := by
    rw [Ingestor.line, h.lines, Feed.atWire, h.wire]
    rfl
  have hahead : (s.withReader .resting).ahead = s.ahead := by
    rw [Ingestor.ahead, Ingestor.ahead, hreader]
    rfl
  rw [hline]
  refine ⟨⟨h.wire, h.lines, h.lastId, h.live, hahead ▸ h.ahead, h.awake⟩, ?_⟩
  simp [Mark.told, Admits]

/-- What is left is shown, unless it has been. -/
theorem work (h : s.Offline left) (hleft : ∀ e ∈ left, ∃ x, e.Ripe x) (hreader : s.reader = .working e) :
    (s.work e).1.Offline left ∧ ∀ d ∈ (s.work e).2.flatMap Mark.told, Admits left d := by
  have hmem : e ∈ left := h.ahead e (by simp [ahead_working hreader])
  have hrest : ∀ y ∈ s.core.queue, y ∈ left := fun y hy => h.ahead y (by simp [ahead_working hreader, hy])
  obtain ⟨x, hd, hport⟩ := hleft e hmem
  have hsettle : s.settle e = s.dedupe x false e := by
    have hsettles := s.settles e
    generalize s.settle e = r at *
    cases hsettles with
    | other hnone => simp [hport] at hnone
    | believed hport' =>
      obtain ⟨rfl, rfl⟩ : x = _ ∧ false = _ := by simpa using hport.symm.trans hport'
      rfl
    | passed _ hraw => exact absurd hd hraw
    | held _ hraw => exact absurd hd hraw
  rw [Ingestor.work, parts?_of_port hport, hsettle]
  refine ⟨⟨h.wire, h.lines, h.lastId, h.live, fun y hy => ?_, h.awake⟩, fun d hd => ?_⟩
  · rcases List.mem_append.mp hy with hy | hy
    · rw [withReader_reader, hand_after] at hy
      cases hy
    · exact hrest y hy
  · rw [List.flatMap_singleton, told_settled] at hd
    obtain ⟨y, hy, rfl⟩ := List.mem_map.mp hd
    have hsame : y = e := by
      simp only [Ingestor.dedupe, Feed.dedupe] at hy
      split at hy <;> simp_all
    exact .inr ⟨y, hsame ▸ hmem, rfl⟩

theorem step (h : s.Offline left) (hleft : ∀ e ∈ left, ∃ x, e.Ripe x) (ht : s.Tethered) (ha : a.isOffline = true) :
    (s.step a).1.Offline left ∧ ∀ d ∈ (s.step a).2.flatMap Mark.told, Admits left d := by
  have hmove := s.happens a
  generalize s.step a = r at *
  cases hmove with
  | nothing => exact ⟨h, by simp⟩
  | receive => cases ha
  | hangUp =>
    have hsame : s.core.hangUp = s.core := by rw [Feed.hangUp, h.wire]
    rw [hsame]
    exact ⟨h, by simp⟩
  | tick t => exact ⟨h.congr _ s.core.horizon rfl rfl rfl rfl, by simp⟩
  | wake id =>
    rcases s.wake_eq id with ⟨hsame, -⟩ | ⟨x, hx, -⟩
    · rw [hsame]
      exact ⟨h, by simp⟩
    · have hmem := (due?_eq_some hx).1
      rw [h.live] at hmem
      cases hmem
  | put i =>
    obtain ⟨hput, htold⟩ := h.put i
    exact ⟨hput, by simp [htold]⟩
  | look hready =>
    have hahead : ∀ e ∈ s.look.ahead, e ∈ left := by
      rw [look_ahead hready]
      exact h.ahead
    unfold look at hahead ⊢
    split at hahead <;> exact ⟨⟨h.wire, h.lines, h.lastId, h.live, hahead, h.awake⟩, by simp⟩
  | line hreader => exact h.line hreader
  | work hreader => exact h.work hleft hreader
  | setHorizon id =>
    exact ⟨⟨h.wire, h.lines, rfl, h.live, h.ahead, h.awake⟩, by simp [Mark.told]⟩
  | close => exact ⟨⟨rfl, rfl, h.lastId, h.live, List.forall_mem_nil _, h.awake⟩, by simp⟩
  | revoke id =>
    obtain ⟨hcore, hreader, -, hawake⟩ := s.cancel_same id
    have hlive : (s.cancel id).live = s.live := by
      rw [live_cancel ht, h.live]
      rfl
    exact ⟨h.congr s.core.now s.core.horizon hcore hreader hlive hawake, by simp⟩
  | reset wire =>
    have hqueue : ∀ e ∈ s.core.queue, e ∈ left := fun e he => h.ahead e (List.mem_append_right _ he)
    exact ⟨⟨of_decide_eq_true ha, h.lines, rfl, (ht.reset wire).2, hqueue, h.awake⟩, by simp [Mark.told]⟩

theorem run (h : s.Offline left) (hleft : ∀ e ∈ left, ∃ x, e.Ripe x) (ht : s.Tethered)
    (hmoves : ∀ a ∈ moves, a.isOffline = true) :
    (s.run moves).Offline left ∧ ∀ d ∈ (s.marks moves).flatMap Mark.told, Admits left d := by
  induction moves generalizing s with
  | nil => exact ⟨h, by simp [marks]⟩
  | cons a moves ih =>
    obtain ⟨ha, hrest⟩ := List.forall_mem_cons.mp hmoves
    obtain ⟨hstep, htold⟩ := h.step hleft ht ha
    obtain ⟨hrun, htold'⟩ := ih hstep (ht.step a) hrest
    refine ⟨hrun, ?_⟩
    rw [marks, List.flatMap_append]
    exact List.forall_mem_append.mpr ⟨htold, htold'⟩

end Offline

/-! ## Sessions -/

/-- A new ingestor at the time with the wire, but for what is in its queue and with tasks that have woken up. -/
def anew (config : FeedConfig) (wire : Wire) (now : Instant) (queue : List Event) (awake : List Held) : Ingestor :=
  { fresh config with core := { Feed.fresh config with wire, now, queue }, awake }

/-- The downs that tasks have put into the queue or are about to. -/
def leftovers (s : Ingestor) : List Event := s.core.queue ++ s.awake.map (·.believed)

theorem reset_alike {config : FeedConfig} (h : s.Kept config) (ht : s.Tethered) (hclosing : s.reader = .closing)
    (wire : Wire) : (s.reset wire).Alike (anew config wire s.core.now s.core.queue s.awake) := by
  obtain ⟨hlines, hrest, -⟩ := h.closing hclosing
  obtain ⟨htethered, hlive⟩ := ht.reset wire
  refine ⟨htethered, (Tethered.fresh config).congr rfl rfl rfl rfl, ?_, rfl, hlive, rfl⟩
  rw [anew, ← h.config, Ingestor.reset, Feed.fresh]
  dsimp only
  rw [hlines, hrest, h.held]

theorem reset_offline (h : s.core.lines = []) (ht : s.Tethered) :
    (s.reset .absent).Offline (s.reset .absent).leftovers where
  wire := rfl
  lines := h
  lastId := rfl
  live := (ht.reset .absent).2
  ahead _ he := List.mem_append_left _ he
  awake _ hx := List.mem_append_right _ (List.mem_map_of_mem hx)

/-- Take any ingestor whose session has been closed, after whatever happened in this session and before it, and
give it a new wire or none. Nothing sleeps on, and what is left over are downs that were held; but for these it
cannot be told from a new ingestor. There are none if no task was past the point where it can be cancelled while
the session was being closed. Without a wire it has nothing to say but that it is not connected, and these downs. -/
theorem sessions_isolated (config : FeedConfig) (before : List Move) (wire : Wire)
    (closing : ((fresh config).run before).reader = .closing) :
    let s := ((fresh config).run before).reset wire
    s.live = [] ∧ (∀ e ∈ s.leftovers, ∃ x, e.Ripe x) ∧
    s.Indistinct (anew config wire s.core.now s.core.queue s.awake) ∧
    ((∀ pre, pre <+: before → ((fresh config).run pre).reader = .closing → ((fresh config).run pre).awake = []) →
      s.leftovers = [] ∧ s.Indistinct (anew config wire s.core.now [] [])) ∧
    (wire = .absent → ∀ after : List Move, (∀ a ∈ after, a.isOffline = true) →
      (∀ d ∈ (s.marks after).flatMap Mark.told, Admits s.leftovers d) ∧
      (∀ e ∈ (s.run after).core.queue, e ∈ s.leftovers) ∧ (s.run after).core.lastId = none) := by
  have ht : ((fresh config).run before).Tethered := (Tethered.fresh config).run before
  have he : ((fresh config).run before).Earned := (Earned.fresh config).run before
  have hkept : ((fresh config).run before).Kept config := (Kept.fresh config).run (.fresh config) before
  obtain ⟨hlines, -, hqueue⟩ := hkept.closing closing
  have halike := reset_alike hkept ht closing wire
  have hripe : ∀ e ∈ (((fresh config).run before).reset wire).leftovers, ∃ x, e.Ripe x := by
    refine List.forall_mem_append.mpr ⟨hqueue, fun e hmem => ?_⟩
    obtain ⟨x, hx, rfl⟩ := List.mem_map.mp hmem
    exact ⟨x.id, he.awake x hx⟩
  refine ⟨(ht.reset wire).2, hripe, halike.indistinct, fun hidle => ?_, ?_⟩
  · have hnone := run_emptied (s := fresh config) nofun hidle closing
    have hawake := hidle before (List.prefix_refl before) closing
    rw [hnone, hawake] at halike
    refine ⟨?_, halike.indistinct⟩
    rw [leftovers, show (((fresh config).run before).reset wire).awake = [] from hawake, List.map_nil, List.append_nil]
    exact hnone
  · rintro rfl after hafter
    obtain ⟨hoffline, htold⟩ := (reset_offline hlines ht).run hripe (ht.reset .absent).1 hafter
    exact ⟨htold, fun e hmem => hoffline.ahead e (List.mem_append_right _ hmem), hoffline.lastId⟩

section Small

theorem closing_of (h : (match s.reader with | .closing => true | _ => false) = true) : s.reader = .closing := by
  cases hreader : s.reader <;> simp_all

/-- A down is held and falls due. -/
def dueMoves : List Move :=
  [ .close, .reset .live, .receive (framed [portRecord "false"]), .look, .line, .work, .look, .line, .tick 5000 ]

/-- The session is closed, and the task wakes up before it is cancelled. -/
def closingMoves : List Move := dueMoves ++ [.close, .wake ⟨1, 3⟩, .put 0, .revoke ⟨1, 3⟩]

def closed (moves : List Move) (wire : Wire) : Ingestor := ((fresh (.usual "events.sock")).run moves).reset wire

/-- The down is shown in the next session, and it is shown without a wire; a new ingestor has nothing to show. -/
theorem news_outlives_session :
    ((fresh (.usual "events.sock")).run closingMoves).reader = .closing ∧
    ((closed closingMoves .live).marks [.look, .work]).filterMap (·.shown? ⟨1, 3⟩) = [false] ∧
    ((closed closingMoves .absent).marks [.look, .work]).filterMap (·.shown? ⟨1, 3⟩) = [false] ∧
    ¬ (closed closingMoves .live).Indistinct (anew (.usual "events.sock") .live 5000 [] []) := by
  have hshown : ((closed closingMoves .live).marks [.look, .work]).filterMap (·.shown? ⟨1, 3⟩) = [false] := by
    decide +kernel
  refine ⟨closing_of (by decide +kernel), hshown, by decide +kernel, fun h => ?_⟩
  rw [h.marks] at hshown
  cases hshown

/-- A down is held when the session is closed, and its task wakes up no more. -/
def heldMoves : List Move :=
  [ .close, .reset .live, .receive (framed [portRecord "false"]), .look, .line, .work, .look, .line, .close ]

theorem sessions_isolated_small :
    ((fresh (.usual "events.sock")).run heldMoves).live.length = 1 ∧
    (closed heldMoves .live).Indistinct (anew (.usual "events.sock") .live (closed heldMoves .live).core.now [] []) ∧
    ∀ d ∈ ((closed heldMoves .absent).marks [.tick 6000, .wake ⟨1, 3⟩, .put 0, .look, .line]).flatMap Mark.told,
      Admits [] d := by
  have hclosing : ((fresh (.usual "events.sock")).run heldMoves).reader = .closing := closing_of (by decide +kernel)
  have hidle : ∀ pre ∈ heldMoves.inits, ((fresh (.usual "events.sock")).run pre).awake.isEmpty = true := by
    decide +kernel
  have hnone (pre : List Move) (hpre : pre <+: heldMoves) : ((fresh (.usual "events.sock")).run pre).awake = [] :=
    List.isEmpty_iff.mp (hidle pre ((List.mem_inits _ _).mpr hpre))
  have hlive := sessions_isolated (.usual "events.sock") heldMoves .live hclosing
  have hoff := sessions_isolated (.usual "events.sock") heldMoves .absent hclosing
  obtain ⟨hleft, -⟩ := hoff.2.2.2.1 fun pre hpre _ => hnone pre hpre
  have htold := (hoff.2.2.2.2 rfl [.tick 6000, .wake ⟨1, 3⟩, .put 0, .look, .line] (by decide)).1
  rw [hleft] at htold
  exact ⟨by decide +kernel, (hlive.2.2.2.1 fun pre hpre _ => hnone pre hpre).2, htold⟩

end Small
end Ingestor
end Fabric
