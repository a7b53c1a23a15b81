import Fabric.Proofs.Abreast

/-! What a stream of bytes comes to, said without the feed: its whole lines, the records on them, the
ruling on each record, and of the records that are let in the pieces that say something new, record by
record (`streamed`). A feed that holds nothing back owes at any time what is left of that (`owed`), and
every call pays off what it hands over. So neither how the bytes are cut up on the way nor when events
are asked for makes a difference (`run_streamed`). -/

namespace Fabric

open Fabric.Text

/-- The ruling on a record, worked out from the last number known. -/
def Ruling.of (floor : Option UInt64) (e : Event) : Ruling :=
  match e.id, floor with
  | some i, some last =>
    if i ≤ last then .covered e else if i = last + 1 then .admitted e else .gap (last + 1) i
  | _, _ => .admitted e

/-- The rulings on one record after another. -/
def rulings (floor : Option UInt64) : List Event → List Ruling
  | [] => []
  | e :: r => Ruling.of floor e :: rulings ((Ruling.of floor e).floorAfter floor) r

/-- An event or a gap, as against nothing or a wire that is gone. -/
def Delivery.answer? : Delivery → Option Delivery
  | event e => some (event e)
  | fault (.gap expected got) => some (fault (.gap expected got))
  | _ => none

theorem Delivery.answer?_eq_none {d : Delivery} (hevent : ∀ e, d ≠ .event e)
    (hgap : ∀ a b, d ≠ .fault (.gap a b)) : d.answer? = none := by
  unfold answer?
  split
  · exact absurd rfl (hevent _)
  · exact absurd rfl (hgap _ _)
  · rfl

namespace Feed

variable {f g : Feed} {e : Event}

/-! ## What a stream comes to -/

/-- The lines that are over. -/
def wholeLines (bytes : List UInt8) : List (List UInt8) := (splitAt (· == 0x0A) bytes).dropLast

/-- What is new in events that come one after the other, if `known` was delivered last of the ports;
and what was delivered last then. -/
def unrepeated (known : Table PortId Bool) : List Event → List Event × Table PortId Bool
  | [] => ([], known)
  | e :: r =>
    match e.port? with
    | some (id, up) =>
      let rest := unrepeated (known.insert id up) r
      (if known.get? id = some up then rest.1 else e.believed :: rest.1, rest.2)
    | none => (e :: (unrepeated known r).1, (unrepeated known r).2)

/-- What is handed over of records that are ruled on. Each is worked off entirely before the next. -/
def handed (capacity : Nat) (known : Table PortId Bool) : List Ruling → List Delivery
  | [] => []
  | .covered _ :: r => handed capacity known r
  | .gap expected got :: r => .fault (.gap expected got) :: handed capacity known r
  | .admitted e :: r =>
    let new := unrepeated known (pieces capacity e)
    new.1.map .event ++ handed capacity new.2 r

/-- What is handed over of a stream from its start. -/
def streamed (capacity : Nat) (horizon : Option UInt64) (bytes : List UInt8) : List Delivery :=
  handed capacity ∅ (rulings horizon (records (wholeLines bytes)))

theorem ruling_eq (f : Feed) (e : Event) : f.ruling e = Ruling.of f.floor e := by
  unfold ruling sequence Ruling.of
  rw [← floor]
  cases e.id with
  | none => rfl
  | some i =>
    cases f.floor with
    | none => rfl
    | some last =>
      dsimp only
      by_cases hle : i ≤ last
      · rw [if_pos hle, if_pos hle]
      · rw [if_neg hle, if_neg hle]
        by_cases hnext : i = last + 1
        · rw [if_pos hnext, if_pos hnext]
        · rw [if_neg hnext, if_neg hnext]

/-- What a ruling says does not depend on how it is worked out. -/
theorem ruled_rulings (floor : Option UInt64) (es : List Event) : Ruled floor es (rulings floor es) := by
  induction es generalizing floor with
  | nil => exact .nil floor
  | cons e r ih =>
    let known : Feed := { fresh (.usual "") with lastId := floor }
    have hfloor : known.floor = floor := Option.or_none
    have hon := ruling_on known e
    rw [ruling_eq, hfloor] at hon
    exact .cons hon (ih _)

/-! ## Lines of bytes -/

/-- The start of a line holds no line end, and stays so whatever comes in. -/
theorem receive_clean (f : Feed) (bytes : List UInt8) : 0x0A ∉ (f.receive bytes).rest := by
  have hclean := splitAt_pieces (p := (· == (0x0A : UInt8))) (f.rest ++ bytes)
  show 0x0A ∉ (splitAt (· == 0x0A) (f.rest ++ bytes)).getLast?.getD []
  cases hlast : (splitAt (· == 0x0A) (f.rest ++ bytes)).getLast? with
  | none => simp
  | some l =>
    intro hmem
    simpa using hclean l (List.mem_of_getLast? hlast) _ hmem

/-- Lines are whole up to the last line end, and what comes after it is none yet. -/
theorem wholeLines_framed {ls : List (List UInt8)} (cut : ∀ l ∈ ls, 0x0A ∉ l) {tail : List UInt8}
    (unended : 0x0A ∉ tail) : wholeLines (framed ls ++ tail) = ls := by
  induction ls with
  | nil => simp [framed, wholeLines, splitAt_clean (beq_sep unended)]
  | cons l r ih =>
    have hr := ih fun l hl => cut l (by simp [hl])
    unfold wholeLines at hr ⊢
    rw [framed_cons, List.append_assoc, List.cons_append, splitAt_piece (beq_sep (cut l (by simp))) rfl,
      List.dropLast_cons_of_ne_nil (splitAt_ne_nil _), hr]

/-- A line of blanks holds no record. -/
theorem record?_blank {l : List UInt8} (h : ∀ b ∈ l, isLineBlank b = true) : record? l = none := by
  have hl : l.dropWhile isLineBlank = [] := by
    induction l with
    | nil => rfl
    | cons b r ih => rw [List.dropWhile_cons_of_pos (h b (by simp)), ih fun x hx => h x (by simp [hx])]
  unfold record?
  rw [hl]
  rfl

/-! ## Events -/

/-- Of queued events some are drawn off up to one that is handed over, if there is one, and what is
new in the others is left. -/
structure Draws (f : Feed) (q : List Event) (g : Feed) (o : Option Event) : Prop where
  settled : Settled f g
  new : (unrepeated f.previous q).1 = o.toList ++ (unrepeated g.previous g.queue).1
  known : (unrepeated f.previous q).2 = (unrepeated g.previous g.queue).2

theorem port?_portState {s : String} {d : UInt64} {port : UInt32} {up : Bool}
    (h : e.portState? = some (.portState s d port up)) : e.port? = some (⟨d, port⟩, up) := by
  rw [Event.port?, h]

/-- An event is dropped if it repeats what was delivered last. -/
theorem settle_draws (hf : Undelayed f) (e : Event) : Draws f (e :: f.queue) (f.settle e).1 (f.settle e).2 := by
  cases hport : e.portState? with
  | none =>
    have hsettle : f.settle e = (f, some e) := by rw [settle, hport]
    have hnone : e.port? = none := by rw [Event.port?, hport]
    rw [hsettle]
    refine ⟨⟨f.queue, f.previous, rfl⟩, ?_, ?_⟩ <;> simp [unrepeated, hnone]
  | some r =>
    obtain ⟨d, port, up, _, rfl⟩ := Event.portState?_eq_some hport
    have hsome := port?_portState hport
    rw [settle_portState hf hport, dedupe]
    refine ⟨⟨f.queue, _, rfl⟩, ?_, ?_⟩
    · by_cases hprev : f.previous.get? ⟨d, port⟩ = some up
      · simp [unrepeated, hsome, hprev]
      · simp [unrepeated, hsome, hprev, Event.believed]
    · simp [unrepeated, hsome]

theorem drain_draws (hf : Undelayed f) (q : List Event) : Draws f q (f.drain q).1 (f.drain q).2 := by
  induction q generalizing f with
  | nil => exact ⟨⟨[], f.previous, rfl⟩, rfl, rfl⟩
  | cons e r ih =>
    have hqueue : Settled f { f with queue := r } := ⟨r, f.previous, rfl⟩
    have hstep := settle_draws (hqueue.undelayed hf) e
    have hrest := (settle_same { f with queue := r } e).2
    unfold drain
    cases hs : { f with queue := r }.settle e with
    | mk g o =>
      rw [hs] at hstep hrest
      cases o with
      | some x => exact ⟨hqueue.trans hstep.settled, hstep.new, hstep.known⟩
      | none =>
        have hg : g.queue = r := hrest
        have hnew : (unrepeated f.previous (e :: r)).1 = (unrepeated g.previous g.queue).1 := hstep.new
        have hknown : (unrepeated f.previous (e :: r)).2 = (unrepeated g.previous g.queue).2 := hstep.known
        have hall := ih (f := g) (hstep.settled.undelayed (hqueue.undelayed hf))
        refine ⟨(hqueue.trans hstep.settled).trans hall.settled, ?_, ?_⟩
        · rw [hnew, hg]
          exact hall.new
        · rw [hknown, hg]
          exact hall.known

/-- A record that is worked off stands for its pieces. -/
theorem take_draws (hf : Undelayed f) (hq : f.queue = []) (e : Event) :
    Draws f (pieces f.config.capacity e) (f.take e).1 (f.take e).2 := by
  unfold take pieces
  cases parts? e with
  | some es =>
    have hpush : Settled f (f.push es) := ⟨_, f.previous, rfl⟩
    have hqueue : (f.push es).queue = es.take f.config.capacity := by rw [push, hq, List.append_nil]
    have hdrain := drain_draws (hpush.undelayed hf) (f.push es).queue
    dsimp only
    rw [hqueue] at hdrain ⊢
    exact ⟨hpush.trans hdrain.settled, hdrain.new, hdrain.known⟩
  | none =>
    have hsettle := settle_draws hf e
    rw [hq] at hsettle
    exact hsettle

/-! ## What is owed -/

/-- What a feed that holds nothing back has yet to hand over, if `later` is what has yet to come in. -/
def owed (f : Feed) (later : List UInt8) : List Delivery :=
  let queued := unrepeated f.previous f.queue
  queued.1.map .event ++
    handed f.config.capacity queued.2 (rulings f.floor (records (f.linesWith later)))

/-- Of what is owed something is handed over, if there is anything at hand. -/
structure Pays (f : Feed) (d : Delivery) (g : Feed) : Prop where
  undelayed : Undelayed g
  rest : g.rest = f.rest
  owed : ∀ later, f.owed later = d.answer?.toList ++ g.owed later
  clear : d.answer? = none → g.queue = [] ∧ g.lines = []

theorem Pays.of_eq {f' : Feed} {d : Delivery} (h : Pays f' d g) (hrest : f'.rest = f.rest)
    (howed : ∀ later, f.owed later = f'.owed later) : Pays f d g :=
  ⟨h.undelayed, h.rest.trans hrest, fun later => (howed later).trans (h.owed later), h.clear⟩

/-- Drawing off events settles a part of what is owed. -/
theorem Draws.owed {q : List Event} {o : Option Event} (h : Draws f q g o) (rs : List Ruling) :
    (unrepeated f.previous q).1.map Delivery.event ++
        handed f.config.capacity (unrepeated f.previous q).2 rs =
      o.toList.map .event ++ ((unrepeated g.previous g.queue).1.map .event ++
        handed g.config.capacity (unrepeated g.previous g.queue).2 rs) := by
  have hconfig : g.config = f.config := by
    obtain ⟨q, p, rfl⟩ := h.settled
    rfl
  rw [h.new, h.known, List.map_append, List.append_assoc, hconfig]

/-! ## Reading off lines -/

theorem owed_of_queue (hq : f.queue = []) (later : List UInt8) :
    f.owed later = handed f.config.capacity f.previous (rulings f.floor (records (f.linesWith later))) := by
  rw [Feed.owed, hq]
  rfl

/-- Nothing is owed for a line without a record. -/
theorem owed_blank (hq : f.queue = []) {l : List UInt8} {r : List (List UInt8)} (hl : record? l = none)
    (later : List UInt8) : owed { f with lines := l :: r } later = owed { f with lines := r } later := by
  have hrecords := records_cons_none hl (linesWith { f with lines := r } later)
  rw [owed_of_queue (f := { f with lines := l :: r }) hq, owed_of_queue (f := { f with lines := r }) hq,
    ← hrecords]
  rfl

/-- What is owed for a line with a record goes by the ruling on it. -/
theorem owed_record (hq : f.queue = []) {l : List UInt8} {r : List (List UInt8)} (hl : record? l = some e)
    (later : List UInt8) :
    owed { f with lines := l :: r } later =
      handed f.config.capacity f.previous (f.ruling e ::
        rulings ((f.ruling e).floorAfter f.floor) (records (linesWith { f with lines := r } later))) := by
  have hrecords := records_cons_some hl (linesWith { f with lines := r } later)
  rw [owed_of_queue (f := { f with lines := l :: r }) hq, ruling_eq]
  show handed _ _ (rulings f.floor (records (l :: linesWith { f with lines := r } later))) = _
  rw [hrecords]
  rfl

/-- A record that is let in is worked off. -/
theorem take_pays (hf : Undelayed f) (hq : f.queue = []) (hseq : f.sequence e = .next) (later : List UInt8) :
    Settled (f.pass e) ((f.pass e).take e).1 ∧
      handed f.config.capacity f.previous (f.ruling e ::
          rulings ((f.ruling e).floorAfter f.floor) (records (f.linesWith later))) =
        ((f.pass e).take e).2.toList.map .event ++ ((f.pass e).take e).1.owed later := by
  have hruling : f.ruling e = .admitted e := by rw [ruling, hseq]
  have hfloor : (f.pass e).floor = (f.ruling e).floorAfter f.floor := floor_pass_ruling (by simp [hseq])
  have hdraws := take_draws (f := f.pass e) hf hq e
  have howed := hdraws.owed (rulings (f.pass e).floor (records (f.linesWith later)))
  refine ⟨hdraws.settled, ?_⟩
  rw [← hfloor, hruling]
  refine Eq.trans howed ?_
  obtain ⟨q, p, hg⟩ := hdraws.settled
  rw [hg]
  rfl

theorem readLines_pays (hf : Undelayed f) (hq : f.queue = []) (ls : List (List UInt8)) :
    Pays { f with lines := ls } (told (f.readLines ls).2) (f.readLines ls).1 := by
  induction ls generalizing f with
  | nil => exact ⟨hf, rfl, fun _ => rfl, fun _ => ⟨hq, rfl⟩⟩
  | cons l r ih =>
    have hrest : Pays { f with lines := r } _ _ := ih (f := { f with lines := r }) hf hq
    unfold readLines
    dsimp only
    cases hl : record? l with
    | none => exact hrest.of_eq rfl (owed_blank hq hl)
    | some e =>
      have howed := owed_record (r := r) hq hl
      have hruling : f.ruling e = ruling { f with lines := r } e := rfl
      dsimp only
      cases hseq : sequence { f with lines := r } e with
      | covered =>
        refine hrest.of_eq rfl fun later => (howed later).trans ?_
        rw [hruling, ruling, hseq, owed_of_queue (f := { f with lines := r }) hq]
        rfl
      | gap a b =>
        -- the gap is told at once, and the lines behind it are left for the next call
        refine ⟨hf, rfl, fun later => (howed later).trans ?_, fun hnone => by cases hnone⟩
        have hfloor := floor_pass_ruling (f := { f with lines := r }) (e := e) (by simp [hseq])
        rw [hruling, ruling, hseq] at *
        rw [owed_of_queue (f := pass { f with lines := r } e) hq, hfloor]
        rfl
      | next =>
        have htake := take_pays (f := { f with lines := r }) hf hq hseq
        have hlines := (take_still (pass { f with lines := r } e) e).lines
        have hrestart := (take_still (pass { f with lines := r } e) e).rest
        cases ht : (pass { f with lines := r } e).take e with
        | mk g o =>
          rw [ht] at htake hlines hrestart
          have hg : Undelayed g := (htake []).1.undelayed hf
          have hpaid (later : List UInt8) :
              owed { f with lines := l :: r } later = o.toList.map .event ++ g.owed later :=
            (howed later).trans (htake later).2
          cases o with
          | some x => exact ⟨hg, hrestart, hpaid, fun hnone => by cases hnone⟩
          | none =>
            -- every piece repeats what was said last, so the reading goes on
            have hempty : g.queue = [] := take_none_queue (f := pass { f with lines := r } e) hq ht
            have hgo : Pays { g with lines := r } _ _ := ih hg hempty
            have hsame : ({ g with lines := r } : Feed) = g :=
              congrArg (fun ls => ({ g with lines := ls } : Feed)) hlines.symm
            rw [hsame] at hgo
            exact hgo.of_eq hrestart hpaid

/-! ## Asking -/

theorem answer?_atWire (f : Feed) : f.atWire.answer? = none := by
  unfold atWire
  split <;> rfl

theorem poll_pays (hf : Undelayed f) : Pays f f.poll.2 f.poll.1 := by
  have hdrain := drain_draws hf f.queue
  have howed (later : List UInt8) :
      f.owed later = (f.drain f.queue).2.toList.map .event ++ (f.drain f.queue).1.owed later := by
    refine (hdrain.owed _).trans ?_
    obtain ⟨q, p, hg⟩ := hdrain.settled
    rw [hg]
    rfl
  unfold poll
  cases hd : f.drain f.queue with
  | mk g o =>
    rw [hd] at hdrain howed
    have hg := hdrain.settled.undelayed hf
    have hrest : g.rest = f.rest := by
      obtain ⟨q, p, rfl⟩ := hdrain.settled
      rfl
    cases o with
    | some e => exact ⟨hg, hrest, howed, fun hnone => by cases hnone⟩
    | none =>
      have hlines : Pays g _ _ := readLines_pays hg (drain_none_queue hd) g.lines
      have hall := hlines.of_eq hrest howed
      dsimp only
      cases hr : g.readLines g.lines with
      | mk g' o =>
        rw [hr] at hall
        match o with
        | some (.ok e) => exact hall
        | some (.error x) => exact hall
        | none =>
          refine ⟨hall.undelayed, hall.rest, ?_, fun _ => hall.clear rfl⟩
          dsimp only
          rw [answer?_atWire]
          exact hall.owed

/-- With nothing held there is nothing to wait for. -/
theorem await_eq (hf : Undelayed f) (ms : Nat) :
    f.await ms = match f.poll with
      | (g, .idle) => ({ g with now := g.now + ms }, .idle)
      | r => r := by
  have hpoll := poll_pays hf
  unfold await
  cases hp : f.poll with
  | mk g d =>
    rw [hp] at hpoll
    have hheld : g.held = [] := hpoll.undelayed.2
    cases d with
    | idle => simp only [hheld, List.map_nil, List.filter_nil, pollAt, advance_of_held_nil hheld]
    | event e => rfl
    | fault x => rfl

theorem await_pays (hf : Undelayed f) (ms : Nat) : Pays f (f.await ms).2 (f.await ms).1 := by
  have hpoll := poll_pays hf
  rw [await_eq hf]
  cases hp : f.poll with
  | mk g d =>
    rw [hp] at hpoll
    cases d with
    | idle => exact ⟨hpoll.undelayed, hpoll.rest, hpoll.owed, hpoll.clear⟩
    | event e => exact hpoll
    | fault x => exact hpoll

/-! ## Runs -/

/-- A session that begins, perhaps with a horizon. -/
def opened (f : Feed) : Option UInt64 → Feed
  | some h => f.attach.setHorizon h
  | none => f.attach

/-- Turns that go on with a session. -/
def Turn.goesOn : Turn → Bool
  | receive _ | hangUp | sleep _ | poll | await _ => true
  | setHorizon _ | attach | disconnect | connect _ => false

/-- The event or the gap that whoever asked is handed. -/
def turnAnswer? (f : Feed) : Turn → Option Delivery
  | .poll => f.poll.2.answer?
  | .await ms => (f.await ms).2.answer?
  | _ => none

/-- The events and the gaps that are handed over along a run. -/
def answers (f : Feed) : List Turn → List Delivery
  | [] => []
  | a :: r => (f.turnAnswer? a).toList ++ (f.turn a).answers r

/-- All that is handed over when it is asked for until nothing is left. -/
def remainder (f : Feed) : List Delivery :=
  match _h : f.poll with
  | (g, .event e) => .event e :: remainder g
  | (g, .fault (.gap expected got)) => .fault (.gap expected got) :: remainder g
  | _ => []
termination_by f.stock
decreasing_by
  · exact poll_event_less _h
  · exact poll_gap_less _h

/-- Nothing is held back, neither an event nor a line that is over. -/
structure Prompt (f : Feed) : Prop where
  undelayed : Undelayed f
  clean : 0x0A ∉ f.rest

theorem Pays.prompt {d : Delivery} (h : Pays f d g) (hf : Prompt f) : Prompt g :=
  ⟨h.undelayed, h.rest ▸ hf.clean⟩

theorem owed_nil (hqueue : f.queue = []) (hlines : f.lines = []) (hrest : 0x0A ∉ f.rest) : f.owed [] = [] := by
  rw [owed_of_queue hqueue, linesWith, hlines, List.append_nil, splitAt_clean (beq_sep hrest)]
  rfl

/-- In the end nothing is owed. -/
theorem remainder_eq (hf : Prompt f) : f.remainder = f.owed [] := by
  fun_induction remainder with
  | case1 f g e heq ih =>
    have hpoll := poll_pays hf.undelayed
    rw [heq] at hpoll
    rw [ih (hpoll.prompt hf), hpoll.owed]
    rfl
  | case2 f g a b heq ih =>
    have hpoll := poll_pays hf.undelayed
    rw [heq] at hpoll
    rw [ih (hpoll.prompt hf), hpoll.owed]
    rfl
  | case3 f hevent hgap =>
    have hpoll := poll_pays hf.undelayed
    have hnone : f.poll.2.answer? = none :=
      Delivery.answer?_eq_none (fun e h => hevent f.poll.1 e (Prod.ext rfl h))
        fun a b h => hgap f.poll.1 a b (Prod.ext rfl h)
    obtain ⟨hqueue, hlines⟩ := hpoll.clear hnone
    rw [hpoll.owed, hnone, owed_nil hqueue hlines (hpoll.prompt hf).clean]
    rfl

theorem turn_pays (hf : Prompt f) {a : Turn} (ha : a.goesOn = true) :
    Prompt (f.turn a) ∧
      ∀ later, f.owed (a.bytes ++ later) = (f.turnAnswer? a).toList ++ (f.turn a).owed later := by
  cases a with
  | receive bytes =>
    refine ⟨⟨hf.undelayed, receive_clean f bytes⟩, fun later => ?_⟩
    have hlines := linesWith_receive f bytes later
    show f.owed (bytes ++ later) = (f.receive bytes).owed later
    unfold Feed.owed
    rw [hlines]
    rfl
  | hangUp =>
    obtain ⟨w, hw⟩ := hangUp_eq f
    show Prompt f.hangUp ∧ ∀ later, f.owed later = f.hangUp.owed later
    rw [hw]
    exact ⟨⟨hf.undelayed, hf.clean⟩, fun _ => rfl⟩
  | sleep ms =>
    show Prompt (f.advance _) ∧ ∀ later, f.owed later = (f.advance _).owed later
    rw [advance_of_held_nil hf.undelayed.2]
    exact ⟨⟨⟨hf.undelayed.1, hf.undelayed.2⟩, hf.clean⟩, fun _ => rfl⟩
  | poll =>
    have hpoll := poll_pays hf.undelayed
    exact ⟨hpoll.prompt hf, hpoll.owed⟩
  | await ms =>
    have hawait := await_pays hf.undelayed ms
    exact ⟨hawait.prompt hf, hawait.owed⟩
  | setHorizon | attach | disconnect | connect => cases ha

theorem run_pays (hf : Prompt f) {turns : List Turn} (hturns : ∀ a ∈ turns, a.goesOn = true) :
    Prompt (f.run turns) ∧
      ∀ later, f.owed (turns.flatMap Turn.bytes ++ later) = f.answers turns ++ (f.run turns).owed later := by
  induction turns generalizing f with
  | nil => exact ⟨hf, fun _ => rfl⟩
  | cons a r ih =>
    obtain ⟨hturn, howed⟩ := turn_pays hf (hturns a (by simp))
    obtain ⟨hrun, hrest⟩ := ih hturn fun b hb => hturns b (by simp [hb])
    refine ⟨hrun, fun later => ?_⟩
    rw [List.flatMap_cons, List.append_assoc, howed, hrest, answers, List.append_assoc]
    rfl

/-- Take a feed that does not debounce and a session on it, with a horizon or without, in which bytes
come in and events are asked for in any way, at once or with some patience. What is handed over, up to
the end and then until nothing is left, is what the bytes come to, and nothing in it depends on how they
were cut up or when events were asked for: the lines up to the last line end are trimmed of blanks and
read one by one, those without a record are passed over, the records are ruled on by their numbers, and
each that is let in is taken to pieces, as many as fit in the queue, that are handed over unless they
repeat what was said last of a port. What comes after the last line end adds nothing, and what is on one
line makes no difference to the record on another. -/
theorem run_streamed (f : Feed) (undelayed : f.config.debounce = 0) (horizon : Option UInt64)
    (turns : List Turn) (session : ∀ a ∈ turns, a.goesOn = true) :
    (f.opened horizon).answers turns ++ ((f.opened horizon).run turns).remainder =
        streamed f.config.capacity horizon (turns.flatMap Turn.bytes) ∧
      (∀ ls tail, (∀ l ∈ ls, 0x0A ∉ l) → 0x0A ∉ tail → turns.flatMap Turn.bytes = framed ls ++ tail →
        streamed f.config.capacity horizon (turns.flatMap Turn.bytes) =
          handed f.config.capacity ∅ (rulings horizon (records ls))) ∧
      (∀ before l after, records (before ++ l :: after) = records before ++ (record? l).toList ++ records after) ∧
      (∀ l, (∀ b ∈ l, isLineBlank b = true) → record? l = none) ∧
      ∀ es, Ruled horizon es (rulings horizon es) := by
  have hprompt : Prompt (f.opened horizon) := by
    cases horizon <;> exact ⟨⟨undelayed, rfl⟩, List.not_mem_nil⟩
  have hstart : (f.opened horizon).owed (turns.flatMap Turn.bytes ++ []) =
      streamed f.config.capacity horizon (turns.flatMap Turn.bytes) := by
    rw [List.append_nil]
    cases horizon <;> rfl
  obtain ⟨hend, howed⟩ := run_pays hprompt session
  refine ⟨?_, ?_, ?_, fun _ => record?_blank, ruled_rulings horizon⟩
  · rw [remainder_eq hend, ← howed, hstart]
  · intro ls tail cut unended hbytes
    rw [streamed, hbytes, wholeLines_framed cut unended]
  · intro before l after
    have hline : record? l = none ∨ ∃ e, record? l = some e := by
      cases record? l <;> simp
    unfold records
    rcases hline with hl | ⟨e, hl⟩ <;> simp [hl]

section Small

/-- The record of a switch with a name of two bytes for a letter. -/
def accentedRecord (body : String) : List UInt8 :=
  Text.Utf8.encode "\x7b\"dp_name\":\"é1\",\"dp_id\":1," ++ Text.Utf8.encode body ++ [0x7D]

/-- The letter is cut in two, a line end comes before its line is asked for, and a line is not over. -/
def cutTurns : List Turn :=
  let line := accentedRecord "\"event_id\":8,\"PORTS_STATUS\":\x7b\"1\":true,\"2\":false\x7d"
  [ .receive (line.take 13), .poll, .receive (line.drop 13), .await 5, .receive [0x0A, 0x3F, 0x0A], .poll,
    .receive (framed [accentedRecord "\"event_id\":12"] ++ [0x7B]) ]

theorem run_streamed_cut :
    (∀ a ∈ cutTurns, a.goesOn = true) ∧
      (smallFeed.opened (some 7)).answers cutTurns ++ ((smallFeed.opened (some 7)).run cutTurns).remainder =
        streamed 4096 (some 7) (cutTurns.flatMap Turn.bytes) := by
  have session : ∀ a ∈ cutTurns, a.goesOn = true := by decide +kernel
  exact ⟨session, (run_streamed smallFeed rfl (some 7) cutTurns session).1⟩

/-- Two ports, and a gap. -/
example : (streamed 4096 (some 7) (cutTurns.flatMap Turn.bytes)).map (fun d => d.event?.bind Event.port?) =
    [some (⟨1, 1⟩, true), some (⟨1, 2⟩, false), none] := by
  decide +kernel

end Small
end Feed
end Fabric
