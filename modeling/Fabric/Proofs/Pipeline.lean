import Fabric.Feed.Progress
import Fabric.Proofs.Dispatch
import Fabric.Proofs.Framing

/-! The feed does not show. Without debouncing an engine that takes in what the feed delivers ends
where it would be had it taken in the records themselves, as long as they come in sequence. What
is due before a delivery is the event delivered and what is due after it, and what the feed drops
on the way the engine would have made nothing of, because the last state that was delivered of a
port is the one that the engine has (`Knows`). -/

namespace Fabric

/-- The records that come in sequence after `floor`, up to the first gap. One without a number
always does; before any number is known they all do. -/
def inSequence : Option UInt64 → List Event → List Event
  | _, [] => []
  | floor, e :: r =>
    match e.id, floor with
    | some id, some last =>
      if id ≤ last then inSequence floor r
      else if id = last + 1 then e :: inSequence (some id) r
      else []
    | id, floor => e :: inSequence (id.or floor) r

/-- What records may say for the feed to follow them. -/
structure Orderly (N : UInt64 → String → Prop) (capacity : Nat) (e : Event) : Prop where
  single : (EventKind.all.filter e.carries).length ≤ 1
  ports : ∀ ports ∈ e.portsStatus, ports.size ≤ capacity
  macs : ∀ ls ∈ e.learnedMacs, ls.length ≤ capacity
  named : ∀ d, e.dpId = some d → N d e.switchName

theorem Orderly.learn {N : UInt64 → String → Prop} {capacity : Nat} {e : Event}
    (h : Orderly N capacity e) (hmacs : e.learnedMacs.isSome = true) : e.learn = none := by
  cases hl : e.learn with
  | none => rfl
  | some l =>
    have hpair : [EventKind.learn, .learnedMacs].filter e.carries = [.learn, .learnedMacs] := by
      simp [Event.carries, hl, hmacs]
    have hsub : List.Sublist [EventKind.learn, .learnedMacs] (EventKind.all.filter e.carries) :=
      hpair ▸ List.Sublist.filter e.carries (by decide)
    have hlength := Nat.le_trans hsub.length_le h.single
    simp at hlength

namespace Feed

variable {N : UInt64 → String → Prop} {f : Feed} {g : Engine}

/-- Ids and names of switches that determine each other. -/
structure Naming (N : UInt64 → String → Prop) : Prop where
  name : ∀ d s s', N d s → N d s' → s = s'
  id : ∀ d d' s, N d s → N d' s → d = d'

/-- Nothing is held back, now or later. -/
def Undelayed (f : Feed) : Prop := f.config.debounce = 0 ∧ f.held = []

/-- The state that was delivered last of a port is the one that the engine has of it. -/
def Knows (N : UInt64 → String → Prop) (f : Feed) (g : Engine) : Prop :=
  ∀ d s p v, N d s → f.previous.get? ⟨d, p⟩ = some v → g.network.upState? ⟨s, p⟩ = some v

/-- Working off events touches the queue and what was delivered of ports. -/
def Settled (f f' : Feed) : Prop := ∃ q p, f' = { f with queue := q, previous := p }

theorem Settled.trans {f' f'' : Feed} (h : Settled f f') (h' : Settled f' f'') : Settled f f'' := by
  obtain ⟨_, _, rfl⟩ := h
  obtain ⟨q, p, rfl⟩ := h'
  exact ⟨q, p, rfl⟩

theorem Settled.undelayed {f' : Feed} (h : Settled f f') (hf : Undelayed f) : Undelayed f' := by
  obtain ⟨_, _, rfl⟩ := h
  exact hf

/-- Of what is due the feed has delivered an event, or nothing, and something is left. -/
def Accounts (N : UInt64 → String → Prop) (f : Feed) (g : Engine) (due left : List Event) :
    Feed × Option Event → Prop
  | (f', some e) => Settled f f' ∧ Knows N f' (g.dispatch e).1 ∧ g.dispatchAll due = g.dispatchAll (e :: left)
  | (f', none) => Settled f f' ∧ Knows N f' g ∧ g.dispatchAll due = g.dispatchAll left

/-! ## One event -/

/-- An event that the feed delivers as it is or not at all. -/
structure Plain (N : UInt64 → String → Prop) (e : Event) : Prop where
  named : ∀ d, e.dpId = some d → N d e.switchName
  one : e.portState? = none → e.portsStatus? = none

theorem settle_portState (hf : Undelayed f) {e : Event} {s : String} {d : UInt64} {port : UInt32} {up : Bool}
    (h : e.portState? = some (.portState s d port up)) :
    f.settle e = f.dedupe ⟨d, port⟩ up { e with debounced := some true } := by
  have hdrop : f.drop ⟨d, port⟩ = f := by
    unfold drop
    rw [hf.2]
    cases f
    cases hf.2
    rfl
  unfold settle
  rw [h]
  dsimp only
  split
  next hd => rw [← hd]
  next => simp [debounce, hdrop, hf.1]

/-- The state that becomes known of a port is the one that the engine comes to have. -/
theorem Knows.insert (hN : Naming N) (hk : Knows N f g) {d : UInt64} {s : String} (hname : N d s)
    {port : UInt32} {up : Bool} {g' : Engine}
    (hg' : ∀ place, g'.network.upState? place =
      if place = ⟨s, port⟩ then some up else g.network.upState? place) :
    Knows N { f with previous := f.previous.insert ⟨d, port⟩ up } g' := by
  intro d' s' p' v hn hv
  rw [hg']
  rw [Table.get?_insert] at hv
  by_cases hp : p' = port
  · subst hp
    by_cases hs : s' = s
    · subst hs
      cases hN.id d' d s' hn hname
      simpa using hv
    · have hd' : d' ≠ d := fun h => hs (hN.name d' s' s hn (h ▸ hname))
      rw [if_neg (by simpa using hd')] at hv
      rw [if_neg (by simpa using hs)]
      exact hk d' s' p' v hn hv
  · rw [if_neg (by simp [hp])] at hv
    rw [if_neg (by simp [hp])]
    exact hk d' s' p' v hn hv

theorem settle_accounts (hN : Naming N) (hf : Undelayed f) (hk : Knows N f g) {e : Event}
    (he : Plain N e) (l : List Event) : Accounts N f g (e :: l) l (f.settle e) := by
  cases hport : e.portState? with
  | none =>
    have hsettle : f.settle e = (f, some e) := by rw [settle, hport]
    rw [hsettle]
    refine ⟨⟨f.queue, f.previous, rfl⟩, fun d s p v hn hv => ?_, rfl⟩
    rw [Engine.upState?_dispatch hport (he.one hport)]
    exact hk d s p v hn hv
  | some r =>
    obtain ⟨d, port, up, hd, rfl⟩ := Event.portState?_eq_some hport
    have hname := he.named d hd
    rw [settle_portState hf hport, dedupe]
    by_cases hprev : f.previous.get? ⟨d, port⟩ = some up
    · have hup := hk d e.switchName port up hname hprev
      rw [if_pos hprev]
      refine ⟨⟨f.queue, _, rfl⟩, hk.insert hN hname fun place => ?_, ?_⟩
      · split
        next h => rw [h, hup]
        next => rfl
      · exact Engine.dispatchAll_skip (Engine.dispatch_portState_same hport hup) l
    · rw [if_neg hprev]
      exact ⟨⟨f.queue, _, rfl⟩, hk.insert hN hname (Engine.upState?_dispatch_portState hport g), rfl⟩

/-! ## Queued events -/

theorem Accounts.trans_none {f' : Feed} {due mid left : List Event} {r : Feed × Option Event}
    (h : Accounts N f g due mid (f', none)) (h' : Accounts N f' g mid left r) : Accounts N f g due left r := by
  obtain ⟨hs, _, hdue⟩ := h
  obtain ⟨f'', o⟩ := r
  cases o with
  | none => exact ⟨hs.trans h'.1, h'.2.1, hdue.trans h'.2.2⟩
  | some e => exact ⟨hs.trans h'.1, h'.2.1, hdue.trans h'.2.2⟩

theorem drain_accounts (hN : Naming N) {q : List Event} (hf : Undelayed f) (hk : Knows N f g)
    (hq : ∀ e ∈ q, Plain N e) (l : List Event) :
    Accounts N f g (q ++ l) ((f.drain q).1.queue ++ l) (f.drain q) := by
  induction q generalizing f with
  | nil => exact ⟨⟨[], f.previous, rfl⟩, hk, rfl⟩
  | cons e r ih =>
    have hr : Settled f { f with queue := r } := ⟨r, f.previous, rfl⟩
    have hstep := settle_accounts hN (hr.undelayed hf) (g := g) (by exact hk) (hq e (by simp)) (r ++ l)
    have hqueue := (settle_same { f with queue := r } e).2
    unfold drain
    split
    next f' e' heq =>
      rw [heq] at hstep hqueue
      refine ⟨hr.trans hstep.1, hstep.2.1, ?_⟩
      rw [hqueue]
      exact hstep.2.2
    next f' heq =>
      rw [heq] at hstep
      exact Accounts.trans_none ⟨hr.trans hstep.1, hstep.2.1, hstep.2.2⟩
        (ih (hstep.1.undelayed (hr.undelayed hf)) hstep.2.1 (fun x hx => hq x (by simp [hx])))

theorem drain_suffix (f : Feed) (q : List Event) : (f.drain q).1.queue <:+ q := by
  induction q generalizing f with
  | nil => exact List.suffix_refl []
  | cons e r ih =>
    have hqueue := (settle_same { f with queue := r } e).2
    unfold drain
    split
    next heq =>
      rw [heq] at hqueue
      dsimp only at hqueue ⊢
      rw [hqueue]
      exact List.suffix_cons e r
    next => exact (ih _).trans (List.suffix_cons e r)

theorem drain_none_queue {f f' : Feed} {q : List Event} (h : f.drain q = (f', none)) : f'.queue = [] := by
  induction q generalizing f with
  | nil =>
    cases h
    rfl
  | cons e r ih =>
    unfold drain at h
    split at h
    · cases h
    · exact ih h

/-! ## One record -/

theorem plain_parts {e : Event} {es : List Event} (hname : ∀ d, e.dpId = some d → N d e.switchName)
    (h : parts? e = some es) : ∀ x ∈ es, Plain N x := by
  intro x hx
  obtain ⟨_, ⟨d, ports, _, _, _, rfl⟩ | ⟨ls, _, _, rfl⟩⟩ := parts?_eq_some h
  · obtain ⟨_, _, rfl⟩ := List.mem_map.mp hx
    exact ⟨hname, fun _ => rfl⟩
  · obtain ⟨_, _, rfl⟩ := List.mem_map.mp hx
    exact ⟨hname, fun _ => rfl⟩

theorem plain_of_parts?_none {e : Event} (hname : ∀ d, e.dpId = some d → N d e.switchName)
    (h : parts? e = none) : Plain N e := by
  refine ⟨hname, fun hport => ?_⟩
  cases hports : e.portsStatus? with
  | none => rfl
  | some r =>
    obtain ⟨d, ports, _, _, rfl⟩ := Event.portsStatus?_eq_some hports
    simp [parts?, hport, hports] at h

theorem length_parts {capacity : Nat} {e : Event} (he : Orderly N capacity e) {es : List Event}
    (h : parts? e = some es) : es.length ≤ capacity := by
  obtain ⟨_, ⟨d, ports, _, hports, _, rfl⟩ | ⟨ls, _, hls, rfl⟩⟩ := parts?_eq_some h
  · rw [List.length_map]
    exact he.ports ports hports
  · rw [List.length_map]
    exact he.macs ls hls

theorem take_accounts (hN : Naming N) (hf : Undelayed f) (hk : Knows N f g) (hq : f.queue = [])
    {e : Event} (he : Orderly N f.config.capacity e) (l : List Event) :
    Accounts N f g (e :: l) ((f.take e).1.queue ++ l) (f.take e) := by
  unfold take
  cases hparts : parts? e with
  | some es =>
    have hpush : f.push es = { f with queue := es } := by
      unfold push
      rw [hq, List.append_nil, List.take_of_length_le (length_parts he hparts)]
    have hs : Settled f { f with queue := es } := ⟨es, f.previous, rfl⟩
    have hdrain := drain_accounts hN (hs.undelayed hf) (g := g) (by exact hk)
      (plain_parts he.named hparts) l
    dsimp only
    rw [hpush]
    refine Accounts.trans_none ⟨hs, hk, ?_⟩ hdrain
    exact (Engine.dispatchAll_parts hparts he.learn g l).symm
  | none =>
    have hplain := plain_of_parts?_none he.named hparts
    have hqueue : (f.settle e).1.queue = [] := by rw [(settle_same f e).2, hq]
    dsimp only
    rw [hqueue]
    exact settle_accounts hN hf hk hplain l

theorem take_queue (hq : f.queue = []) {e : Event} (hname : ∀ d, e.dpId = some d → N d e.switchName) :
    ∀ x ∈ (f.take e).1.queue, Plain N x := by
  intro x hx
  unfold take at hx
  split at hx
  next es hparts =>
    have hsuffix := drain_suffix (f.push es) (f.push es).queue
    have hmem : x ∈ es := by
      have hx := hsuffix.subset hx
      rw [push, hq, List.append_nil] at hx
      exact List.mem_of_mem_take hx
    exact plain_parts hname hparts x hmem
  next =>
    rw [(settle_same f e).2, hq] at hx
    cases hx

theorem take_none_queue (hq : f.queue = []) {e : Event} {f' : Feed} (h : f.take e = (f', none)) :
    f'.queue = [] := by
  unfold take at h
  split at h
  · exact drain_none_queue h
  · have hqueue := (settle_same f e).2
    rw [h, hq] at hqueue
    exact hqueue

/-! ## Lines -/

def records (ls : List (List UInt8)) : List Event := ls.filterMap record?

/-- The number that a record is held against. -/
def floor (f : Feed) : Option UInt64 := f.lastId.or f.horizon

/-- What is due, when `later` is what has yet to come. -/
def due (f : Feed) (later : List (List UInt8)) : List Event :=
  f.queue ++ inSequence f.floor (records (f.lines ++ later))

theorem sequence_covered {e : Event} (h : f.sequence e = .covered) (r : List Event) :
    inSequence f.floor (e :: r) = inSequence f.floor r := by
  unfold sequence at h
  split at h
  next id last hid hfloor =>
    split at h
    next hle => simp [inSequence, floor, hid, hfloor, hle]
    next => split at h <;> cases h
  next => cases h

theorem sequence_gap {e : Event} {a b : UInt64} (h : f.sequence e = .gap a b) (r : List Event) :
    inSequence f.floor (e :: r) = [] := by
  unfold sequence at h
  split at h
  next id last hid hfloor =>
    split at h
    · cases h
    next hle =>
      split at h
      · cases h
      next hne => simp [inSequence, floor, hid, hfloor, hle, hne]
  next => cases h

theorem floor_pass (f : Feed) (e : Event) : (f.pass e).floor = e.id.or f.floor := by
  simp [floor, pass, Option.or_assoc]

theorem sequence_next {e : Event} (h : f.sequence e = .next) (r : List Event) :
    inSequence f.floor (e :: r) = e :: inSequence (f.pass e).floor r := by
  rw [floor_pass]
  unfold sequence at h
  rw [← floor] at h
  cases hid : e.id with
  | none => simp [inSequence, hid]
  | some id =>
    cases hfloor : f.floor with
    | none => simp [inSequence, hid]
    | some last =>
      simp only [hid, hfloor] at h
      split at h
      · cases h
      next hle =>
        split at h
        next hnext => simp only [inSequence, hid, if_neg hle, if_pos hnext, Option.some_or]
        next => cases h

/-- The feed is in step with the engine, and what is at hand and `later` is in order. -/
structure Serves (N : UInt64 → String → Prop) (f : Feed) (g : Engine) (later : List (List UInt8)) : Prop where
  undelayed : Undelayed f
  knows : Knows N f g
  queued : ∀ e ∈ f.queue, Plain N e
  orderly : ∀ e ∈ records (f.lines ++ later), Orderly N f.config.capacity e

/-- Nothing was delivered, and nothing at hand is left. -/
structure Drained (N : UInt64 → String → Prop) (f : Feed) (g : Engine) (later : List (List UInt8))
    (f' : Feed) : Prop where
  rest : f'.rest = f.rest
  serves : Serves N f' g later
  due : g.dispatchAll (f.due later) = g.dispatchAll (f'.due later)
  queue : f'.queue = []
  lines : f'.lines = []

def isGap : Fault → Bool
  | .gap _ _ => true
  | _ => false

/-- What a delivery makes of what was due. -/
def Answers (N : UInt64 → String → Prop) (f : Feed) (g : Engine) (later : List (List UInt8)) :
    Feed × Delivery → Prop
  | (f', .event e) => f'.rest = f.rest ∧ Serves N f' (g.dispatch e).1 later ∧
      g.dispatchAll (f.due later) = g.dispatchAll (e :: f'.due later)
  | (f', .idle) => Drained N f g later f'
  | (f', .fault x) => (isGap x = true ∧ g.dispatchAll (f.due later) = (g, [])) ∨
      (isGap x = false ∧ Drained N f g later f')

/-- What was dropped before a delivery does not matter. -/
theorem Answers.of_due {f' : Feed} {later : List (List UInt8)} {r : Feed × Delivery}
    (h : Answers N f' g later r) (hrest : f'.rest = f.rest)
    (hdue : g.dispatchAll (f.due later) = g.dispatchAll (f'.due later)) : Answers N f g later r := by
  obtain ⟨f'', d⟩ := r
  have hdrained (h : Drained N f' g later f'') : Drained N f g later f'' :=
    ⟨h.rest.trans hrest, h.serves, hdue.trans h.due, h.queue, h.lines⟩
  cases d with
  | event e => exact ⟨h.1.trans hrest, h.2.1, hdue.trans h.2.2⟩
  | idle => exact hdrained h
  | fault x =>
    rcases h with ⟨hx, h⟩ | ⟨hx, h⟩
    · exact .inl ⟨hx, hdue.trans h⟩
    · exact .inr ⟨hx, hdrained h⟩

/-- What came of the lines, as a delivery. -/
def told : Option (Except Fault Event) → Delivery
  | some (.ok e) => .event e
  | some (.error x) => .fault x
  | none => .idle

theorem records_cons_none {l : List UInt8} (h : record? l = none) (r : List (List UInt8)) :
    records (l :: r) = records r := by
  simp [records, h]

theorem records_cons_some {l : List UInt8} {e : Event} (h : record? l = some e) (r : List (List UInt8)) :
    records (l :: r) = e :: records r := by
  simp [records, h]

theorem Serves.of_settled {f' : Feed} {g' : Engine} {later : List (List UInt8)} (h : Serves N f g later)
    (hs : Settled f f') (hknows : Knows N f' g') (hqueued : ∀ e ∈ f'.queue, Plain N e) :
    Serves N f' g' later := by
  have hundelayed := hs.undelayed h.undelayed
  obtain ⟨q, p, rfl⟩ := hs
  exact ⟨hundelayed, hknows, hqueued, h.orderly⟩

section Line
variable {l : List UInt8} {r later : List (List UInt8)} {e : Event}

theorem Serves.tail (h : Serves N { f with lines := l :: r } g later) : Serves N { f with lines := r } g later where
  undelayed := h.undelayed
  knows := h.knows
  queued := h.queued
  orderly x hx := by
    obtain ⟨y, hy, hrecord⟩ := List.mem_filterMap.mp hx
    exact h.orderly x (List.mem_filterMap.mpr ⟨y, List.mem_cons_of_mem l hy, hrecord⟩)

theorem due_blank (hl : record? l = none) :
    due { f with lines := l :: r } later = due { f with lines := r } later :=
  congrArg (fun es => f.queue ++ inSequence f.floor es) (records_cons_none hl _)

theorem due_record (r later : List (List UInt8)) (hq : f.queue = []) (hl : record? l = some e) :
    due { f with lines := l :: r } later = inSequence f.floor (e :: records (r ++ later)) := by
  show f.queue ++ inSequence f.floor (records (l :: (r ++ later))) = _
  rw [hq, records_cons_some hl, List.nil_append]

theorem due_covered (hq : f.queue = []) (hl : record? l = some e)
    (hseq : sequence { f with lines := r } e = .covered) :
    due { f with lines := l :: r } later = due { f with lines := r } later := by
  rw [due_record r later hq hl, due]
  dsimp only
  rw [hq]
  exact sequence_covered hseq (records (r ++ later))

/-- The next record delivers an event, or nothing, and then the lines after it are left. -/
theorem take_answers (hN : Naming N) (hq : f.queue = []) (h : Serves N { f with lines := l :: r } g later)
    (hl : record? l = some e) (hseq : sequence { f with lines := r } e = .next) :
    match (pass { f with lines := r } e).take e with
    | (f', some x) => Answers N { f with lines := l :: r } g later (f', .event x)
    | (f', none) => f'.queue = [] ∧ f'.lines = r ∧ f'.rest = f.rest ∧ Serves N f' g later ∧
        g.dispatchAll (due { f with lines := l :: r } later) = g.dispatchAll (f'.due later) := by
  have he : Orderly N f.config.capacity e := by
    refine h.orderly e ?_
    show e ∈ records (l :: (r ++ later))
    rw [records_cons_some hl]
    exact List.mem_cons_self
  have hpass : Serves N (pass { f with lines := r } e) g later :=
    ⟨h.tail.undelayed, h.tail.knows, h.tail.queued, h.tail.orderly⟩
  have htake := take_accounts hN hpass.undelayed hpass.knows hq he
    (inSequence (pass { f with lines := r } e).floor (records (r ++ later)))
  have hqueued := take_queue (f := pass { f with lines := r } e) hq he.named
  have hdue := congrArg g.dispatchAll (due_record r later hq hl)
  rw [← sequence_next hseq] at htake
  cases hr : (pass { f with lines := r } e).take e with
  | mk f' o =>
    rw [hr] at htake hqueued
    cases o with
    | some x =>
      have hserves := hpass.of_settled htake.1 htake.2.1 hqueued
      obtain ⟨⟨q, p, rfl⟩, _, hrun⟩ := htake
      exact ⟨rfl, hserves, hdue.trans hrun⟩
    | none =>
      have hempty := take_none_queue (f := pass { f with lines := r } e) hq hr
      have hserves := hpass.of_settled htake.1 htake.2.1 hqueued
      obtain ⟨⟨q, p, rfl⟩, _, hrun⟩ := htake
      exact ⟨hempty, rfl, rfl, hserves, hdue.trans hrun⟩

end Line

theorem readLines_answers (hN : Naming N) (ls : List (List UInt8)) {later : List (List UInt8)}
    (hq : f.queue = []) (h : Serves N { f with lines := ls } g later) :
    Answers N { f with lines := ls } g later ((f.readLines ls).1, told (f.readLines ls).2) := by
  -- a line that delivers nothing leaves the same events due, so the lines after it answer
  induction ls generalizing f with
  | nil => exact ⟨rfl, h, rfl, hq, rfl⟩
  | cons l r ih =>
    have hskip (hdue : due { f with lines := l :: r } later = due { f with lines := r } later) :
        Answers N { f with lines := l :: r } g later
          (({ f with lines := r }.readLines r).1, told ({ f with lines := r }.readLines r).2) :=
      (ih (f := { f with lines := r }) hq h.tail).of_due rfl (congrArg g.dispatchAll hdue)
    unfold readLines
    dsimp only
    cases hl : record? l with
    | none => exact hskip (due_blank hl)
    | some e =>
      dsimp only
      cases hseq : sequence { f with lines := r } e with
      | covered => exact hskip (due_covered hq hl hseq)
      | gap a b =>
        refine .inl ⟨rfl, ?_⟩
        rw [due_record r later hq hl]
        exact congrArg g.dispatchAll (sequence_gap hseq _)
      | next =>
        have htake := take_answers hN hq h hl hseq
        dsimp only
        cases hr : (pass { f with lines := r } e).take e with
        | mk f' o =>
          rw [hr] at htake
          cases o with
          | some x => exact htake
          | none =>
            obtain ⟨hempty, hlines, hrest, hserves, hdue⟩ := htake
            have hsame : ({ f' with lines := r } : Feed) = f' := by rw [← hlines]
            have hanswers := ih (f := f') hempty (hsame.symm ▸ hserves)
            rw [hsame] at hanswers
            exact hanswers.of_due hrest hdue

/-! ## Asking -/

theorem poll_answers (hN : Naming N) {later : List (List UInt8)} (h : Serves N f g later) :
    Answers N f g later f.poll := by
  have hdrain := drain_accounts hN h.undelayed h.knows h.queued (inSequence f.floor (records (f.lines ++ later)))
  have hsuffix := drain_suffix f f.queue
  unfold poll
  split
  next f' e heq =>
    rw [heq] at hdrain hsuffix
    have hserves := h.of_settled hdrain.1 hdrain.2.1 fun x hx => h.queued x (hsuffix.subset hx)
    obtain ⟨⟨q, p, rfl⟩, _, hrun⟩ := hdrain
    exact ⟨rfl, hserves, hrun⟩
  next f' heq =>
    rw [heq] at hdrain hsuffix
    have hempty := drain_none_queue heq
    have hserves := h.of_settled hdrain.1 hdrain.2.1 fun x hx => h.queued x (hsuffix.subset hx)
    have hlines := readLines_answers hN f'.lines hempty hserves
    have hrest : f'.rest = f.rest := by
      obtain ⟨⟨q, p, rfl⟩, _, _⟩ := hdrain
      rfl
    have hrun : g.dispatchAll (f.due later) = g.dispatchAll (f'.due later) := by
      obtain ⟨⟨q, p, rfl⟩, _, hrun⟩ := hdrain
      exact hrun
    have hall : Answers N f g later ((f'.readLines f'.lines).1, told (f'.readLines f'.lines).2) :=
      hlines.of_due hrest hrun
    cases hr : f'.readLines f'.lines with
    | mk f'' o =>
      rw [hr] at hall
      match o with
      | some (.ok e) => exact hall
      | some (.error x) => exact hall
      | none =>
        have hdrained : Drained N f g later f'' := hall
        dsimp only
        unfold atWire
        split
        · exact .inr ⟨rfl, hdrained⟩
        · exact hdrained
        · exact .inr ⟨rfl, hdrained⟩

theorem advance_of_held_nil (h : f.held = []) (t : Instant) : f.advance t = { f with now := t } := by
  unfold advance
  rw [h]
  cases f
  cases h
  rfl

/-- With nothing held there is nothing to wait for. -/
theorem await_answers (hN : Naming N) {later : List (List UInt8)} (h : Serves N f g later) (ms : Nat) :
    Answers N f g later (f.await ms) := by
  have hpoll := poll_answers hN h
  unfold await
  split
  next f' heq =>
    rw [heq] at hpoll
    obtain ⟨hrest, hserves, hdue, hqueue, hlines⟩ : Drained N f g later f' := hpoll
    have hheld : f'.held = [] := hserves.undelayed.2
    simp only [hheld, List.map_nil, List.filter_nil, pollAt, advance_of_held_nil hheld]
    exact ⟨hrest, ⟨⟨hserves.undelayed.1, rfl⟩, hserves.knows, hserves.queued, hserves.orderly⟩,
      hdue, hqueue, hlines⟩
  next => exact hpoll

/-- All that a feed delivers before something comes in or goes wrong. -/
def rundown (f : Feed) : List Event :=
  match _h : f.poll with
  | (f', .event e) => e :: rundown f'
  | _ => []
termination_by f.stock
decreasing_by exact poll_event_less _h

theorem dispatchAll_drained {f' : Feed} (h : Drained N f g [] f') : g.dispatchAll (f.due []) = (g, []) := by
  rw [h.due, due, h.queue, h.lines]
  simp [records, inSequence]
  rfl

theorem dispatchAll_rundown (hN : Naming N) (h : Serves N f g []) :
    g.dispatchAll f.rundown = g.dispatchAll (f.due []) := by
  fun_induction rundown generalizing g with
  | case1 f f' e heq ih =>
    have hpoll := poll_answers hN h
    rw [heq] at hpoll
    obtain ⟨_, hserves, hdue⟩ := hpoll
    rw [hdue, Engine.dispatchAll_cons, Engine.dispatchAll_cons, ih hserves]
  | case2 f hno =>
    have hpoll := poll_answers hN h
    cases hp : f.poll with
    | mk f' d =>
      rw [hp] at hpoll
      cases d with
      | event e => exact absurd hp (hno f' e)
      | idle => exact (dispatchAll_drained hpoll).symm
      | fault x =>
        rcases hpoll with ⟨_, hgap⟩ | ⟨_, hdrained⟩
        · exact hgap.symm
        · exact (dispatchAll_drained hdrained).symm

/-! ## A stream -/

/-- Something comes in, the other side goes away, or someone asks for an event and waits at most so
long for it. -/
inductive Move where
  | arrive (bytes : List UInt8)
  | hangUp
  | ask (ms : Nat)

def Move.bytes : Move → List UInt8
  | arrive bytes => bytes
  | hangUp | ask _ => []

/-- What is delivered along the way and then until nothing is left, up to the first gap. -/
def delivered (f : Feed) : List Move → List Event
  | [] => f.rundown
  | .arrive bytes :: r => (f.receive bytes).delivered r
  | .hangUp :: r => f.hangUp.delivered r
  | .ask ms :: r =>
    match f.await ms with
    | (f, .event e) => e :: f.delivered r
    | (f, .idle) => f.delivered r
    | (f, .fault x) => if isGap x then [] else f.delivered r

theorem hangUp_eq (f : Feed) : ∃ w, f.hangUp = { f with wire := w } := by
  unfold hangUp
  split
  · exact ⟨.ended, rfl⟩
  · exact ⟨f.wire, rfl⟩

theorem queue_hangUp (f : Feed) : f.hangUp.queue = f.queue := by
  obtain ⟨w, hw⟩ := hangUp_eq f
  rw [hw]

section Stream
variable {ls : List (List UInt8)}

/-- Of what comes in, whole lines are at hand, and the rest of the stream follows. -/
theorem receive_serves (cut : ∀ l ∈ ls, 0x0A ∉ l) {bytes more : List UInt8}
    (stream : f.rest ++ (bytes ++ more) = framed ls) (h : Serves N f g ls) :
    ∃ left, (∀ l ∈ left, 0x0A ∉ l) ∧ (f.receive bytes).rest ++ more = framed left ∧ 0x0A ∉ (f.receive bytes).rest ∧
      Serves N (f.receive bytes) g left ∧ (f.receive bytes).due left = f.due ls := by
  obtain ⟨done, left, start, rfl, hreceive, hstream, hstart⟩ := receive_framed cut stream
  rw [hreceive]
  refine ⟨left, fun l hl => cut l (List.mem_append_right _ hl), hstream, hstart, ?_, ?_⟩
  · refine ⟨h.undelayed, h.knows, h.queued, ?_⟩
    rw [List.append_assoc]
    exact h.orderly
  · rw [due, List.append_assoc]
    rfl

/-- What is delivered from an answer on, if it is so after the answer. An answer leaves the start of a line alone, so
that the rest of the stream still fits on. -/
theorem dispatchAll_answer {f' : Feed} {d : Delivery} (after : Feed → List Event) (h : Answers N f g ls (f', d))
    (hafter : ∀ {f' : Feed} {g' : Engine}, f'.rest = f.rest → Serves N f' g' ls →
      g'.dispatchAll (after f') = g'.dispatchAll (f'.due ls)) :
    g.dispatchAll (match d with
      | .event e => e :: after f'
      | .idle => after f'
      | .fault x => if isGap x then [] else after f') = g.dispatchAll (f.due ls) := by
  have hdrained (h : Drained N f g ls f') : g.dispatchAll (after f') = g.dispatchAll (f.due ls) := by
    rw [h.due]
    exact hafter h.rest h.serves
  cases d with
  | event e =>
    obtain ⟨hrest, hserves, hdue⟩ := h
    dsimp only
    rw [hdue, Engine.dispatchAll_cons, Engine.dispatchAll_cons, hafter hrest hserves]
  | idle => exact hdrained h
  | fault x =>
    rcases h with ⟨hx, hgap⟩ | ⟨hx, h⟩
    · simp only [hx, if_true]
      exact hgap.symm
    · simp only [hx, Bool.false_eq_true, if_false]
      exact hdrained h

theorem dispatchAll_delivered (hN : Naming N) {moves : List Move} (cut : ∀ l ∈ ls, 0x0A ∉ l)
    (stream : f.rest ++ moves.flatMap Move.bytes = framed ls) (start : 0x0A ∉ f.rest) (h : Serves N f g ls) :
    g.dispatchAll (f.delivered moves) = g.dispatchAll (f.due ls) := by
  induction moves generalizing f g ls with
  | nil =>
    have hls : ls = [] := framed_eq_clean (by simpa using stream) start
    subst hls
    exact dispatchAll_rundown hN h
  | cons m r ih =>
    cases m with
    | arrive bytes =>
      obtain ⟨left, hcut, hstream, hstart, hserves, hdue⟩ := receive_serves cut stream h
      rw [delivered, ← hdue]
      exact ih hcut hstream hstart hserves
    | hangUp =>
      obtain ⟨w, hw⟩ := hangUp_eq f
      rw [delivered, hw]
      exact ih cut stream start ⟨h.undelayed, h.knows, h.queued, h.orderly⟩
    | ask ms =>
      have hanswers := await_answers hN h ms
      rw [delivered]
      cases hr : f.await ms with
      | mk f' d =>
        rw [hr] at hanswers
        have hafter := dispatchAll_answer (fun f => f.delivered r) hanswers fun hrest hserves =>
          ih cut (by rw [hrest]; exact stream) (by rw [hrest]; exact start) hserves
        cases d <;> exact hafter

end Stream

/-- Take a feed that does not debounce, freshly attached with some horizon, and a stream of lines
that comes in over it in whatever pieces, while events are asked for at whatever times. Records
carry one payload, fit into the queue, and name switches and their ids in step; a missing name
counts as the empty one. Then any engine that takes in what is delivered up to the first gap does
what it would do on the records in sequence, to its network and to those it tells. -/
theorem run_delivered (f : Feed) (g : Engine) (horizon : UInt64) (moves : List Move)
    (lines : List (List UInt8)) (undelayed : f.config.debounce = 0)
    (stream : moves.flatMap Move.bytes = framed lines) (cut : ∀ l ∈ lines, 0x0A ∉ l)
    (single : ∀ e ∈ records lines, (EventKind.all.filter e.carries).length ≤ 1)
    (fits : ∀ e ∈ records lines, (∀ ports ∈ e.portsStatus, ports.size ≤ f.config.capacity) ∧
      ∀ ls ∈ e.learnedMacs, ls.length ≤ f.config.capacity)
    (named : ∀ e ∈ records lines, ∀ e' ∈ records lines, e.dpId.isSome = true → e'.dpId.isSome = true →
      (e.dpId = e'.dpId ↔ e.switchName = e'.switchName)) :
    g.run (((f.attach.setHorizon horizon).delivered moves).map .dispatch) =
      g.run ((inSequence (some horizon) (records lines)).map .dispatch) := by
  let N (d : UInt64) (s : String) : Prop := ∃ e ∈ records lines, e.dpId = some d ∧ e.switchName = s
  have hN : Naming N := by
    constructor
    · rintro d s s' ⟨e, he, hd, rfl⟩ ⟨e', he', hd', rfl⟩
      exact (named e he e' he' (by simp [hd]) (by simp [hd'])).mp (hd.trans hd'.symm)
    · rintro d d' s ⟨e, he, hd, rfl⟩ ⟨e', he', hd', hs⟩
      have hids := (named e he e' he' (by simp [hd]) (by simp [hd'])).mpr hs.symm
      rw [hd, hd'] at hids
      exact Option.some.inj hids
  have hserves : Serves N (f.attach.setHorizon horizon) g lines := by
    refine ⟨⟨undelayed, rfl⟩, fun d s p v _ hv => ?_, fun e he => ?_, fun e he => ?_⟩
    · cases hv
    · cases he
    · exact ⟨single e he, (fits e he).1, (fits e he).2, fun d hd => ⟨e, he, hd, rfl⟩⟩
  exact dispatchAll_delivered hN cut stream List.not_mem_nil hserves

section Small

/-- A record of one switch, on a line. -/
def smallRecord (body : String) : List UInt8 :=
  Text.Utf8.encode "\x7b\"dp_name\":\"sw1\",\"dp_id\":1," ++ Text.Utf8.encode body ++ [0x7D]

/-- A line that is no record, two ports of which one is reported again, and a gap. -/
def smallLines : List (List UInt8) :=
  [ [0x3F],
    smallRecord "\"event_id\":8,\"PORTS_STATUS\":\x7b\"1\":true,\"2\":false\x7d",
    smallRecord "\"PORT_CHANGE\":\x7b\"port_no\":1,\"status\":true\x7d",
    smallRecord "\"event_id\":12"]

def smallFeed : Feed := .fresh { FeedConfig.usual "events.sock" with debounce := 0 }

/-- The second record comes in two pieces. -/
def smallMoves : List Move :=
  [.arrive ((framed smallLines).take 100), .ask 0, .arrive ((framed smallLines).drop 100), .hangUp, .ask 10]

theorem run_delivered_small :
    (Engine.fresh .usual).run (((smallFeed.attach.setHorizon 7).delivered smallMoves).map .dispatch) =
      (Engine.fresh .usual).run ((inSequence (some 7) (records smallLines)).map .dispatch) := by
  have stream : smallMoves.flatMap Move.bytes = framed smallLines := by simp [smallMoves, Move.bytes]
  have cut : ∀ l ∈ smallLines, 0x0A ∉ l := by decide +kernel
  have orderly : ∀ e ∈ records smallLines, (EventKind.all.filter e.carries).length ≤ 1 ∧
      ((∀ ports ∈ e.portsStatus, ports.size ≤ smallFeed.config.capacity) ∧
        ∀ ls ∈ e.learnedMacs, ls.length ≤ smallFeed.config.capacity) ∧
      ∀ e' ∈ records smallLines, e.dpId.isSome = true → e'.dpId.isSome = true →
        (e.dpId = e'.dpId ↔ e.switchName = e'.switchName) := by
    decide +kernel
  exact run_delivered smallFeed (Engine.fresh .usual) 7 smallMoves smallLines rfl stream cut
    (fun e he => (orderly e he).1) (fun e he => (orderly e he).2.1) (fun e he => (orderly e he).2.2)

end Small
end Feed
end Fabric
