import Fabric.Proofs.Steps

/-! Runs of a feed. A turn is made of asking, of what falls due and of time that passes, so what holds along
each of these holds along a turn (`Carries.turn`). In this way every run has a timeline of small steps, which
brings to the feed and tells whoever asks what its turns do (`Course`), and a property that each step keeps
holds along all of them (`exists_course`). -/

namespace Fabric.Feed

variable {f g : Feed} {e : Event} {c : Clock} {l m : Timeline} {ms : List Mark}

/-! ## Time -/

theorem releaseMarks_silent (f : Feed) (h : Held) :
    (f.releaseMarks h).filterMap Mark.input? = [] ∧ (f.releaseMarks h).flatMap Mark.told = [] := by
  unfold releaseMarks overflow
  rw [List.filterMap_append, List.flatMap_append, input_lost, told_lost, List.filterMap_map, List.flatMap_map]
  simp [Mark.told, Function.comp_def, Mark.input?]

/-- What falls due goes to the queue, and the time is that of the last. -/
theorem foldl_release (due : List Held) (f : Feed) :
    ∃ q n, due.foldl release f = { f with queue := q, now := n } ∧
      ∀ t, f.now ≤ t → (∀ h ∈ due, h.due ≤ t) → n ≤ t := by
  induction due generalizing f with
  | nil => exact ⟨f.queue, f.now, rfl, fun t ht _ => ht⟩
  | cons h r ih =>
    obtain ⟨q, n, heq, hn⟩ := ih (f.release h)
    exact ⟨q, n, heq, fun t _ hdue => hn t (hdue h (by simp)) fun x hx => hdue x (by simp [hx])⟩

theorem advance_punctual {t : Instant} (h : f.Punctual) (ht : f.now ≤ t) : (f.advance t).Punctual := by
  obtain ⟨q, n, heq, -⟩ :=
    foldl_release (f.held.filter (·.due ≤ t)) { f with held := f.held.filter (t < ·.due) }
  have hadvance : f.advance t = { f with held := f.held.filter (t < ·.due), queue := q, now := t } := by
    rw [advance, heq]
  rw [hadvance]
  exact ⟨by simp, h.ordered.filter _, fun x hx =>
    Int.le_trans (h.soon x (List.mem_filter.mp hx).1) (Int.add_le_add_right ht _)⟩

theorem drain_now (f : Feed) (q : List Event) : (f.drain q).1.now = f.now := by
  induction q generalizing f with
  | nil => rfl
  | cons e r ih =>
    have hs := settle_now { f with queue := r } e
    unfold drain
    split
    next heq => rwa [heq] at hs
    next heq =>
      rw [heq] at hs
      rw [ih, hs]

theorem take_now (f : Feed) (e : Event) : (f.take e).1.now = f.now := by
  unfold take
  split
  · exact drain_now _ _
  · exact settle_now f e

theorem readLines_now (f : Feed) (ls : List (List UInt8)) : (f.readLines ls).1.now = f.now := by
  induction ls generalizing f with
  | nil => rfl
  | cons l r ih =>
    unfold readLines
    dsimp only
    split
    · exact ih _
    next e _ =>
      split
      · exact ih _
      · rfl
      · have ht := take_now (pass { f with lines := r } e) e
        split
        next heq => rwa [heq] at ht
        next heq =>
          rw [heq] at ht
          rw [ih, ht]
          rfl

theorem poll_now (f : Feed) : f.poll.1.now = f.now := by
  have hd := drain_now f f.queue
  unfold poll
  split
  next heq => rwa [heq] at hd
  next g heq =>
    have hr := readLines_now g g.lines
    rw [heq] at hd
    split
    all_goals
      rename_i heq'
      rw [heq'] at hr
      exact hr.trans hd

/-! ## Turns -/

/-- A relation that holds along whatever turns are made of: from a feed, with what comes from outside and
what is told, to a feed. -/
structure Carries (c : Clock) (R : Feed → List Mark → List Delivery → Feed → Prop) : Prop where
  refl : ∀ f, R f [] [] f
  trans : ∀ {f g g' : Feed} {ins ins' : List Mark} {ds ds' : List Delivery},
    R f ins ds g → R g ins' ds' g' → R f (ins ++ ins') (ds ++ ds') g'
  poll : ∀ {f : Feed}, (c = .exact → f.Punctual) → R f [] f.poll.2.told f.poll.1
  release : ∀ {f : Feed} {before after : List Held} {h : Held}, f.held = before ++ h :: after →
    (c = .exact → f.now ≤ h.due ∧ ∀ x ∈ before ++ after, h.due ≤ x.due) →
    R f [] [] ({ f with held := before ++ after }.release h)
  tick : ∀ {f : Feed} {t : Instant}, (c = .exact → f.now ≤ t ∧ ∀ h ∈ f.held, t < h.due) →
    R f [] [] { f with now := t }
  receive : ∀ {f : Feed} (bytes : List UInt8), (c = .exact → f.Punctual) →
    R f [.received bytes] [] (f.receive bytes)
  hangUp : ∀ {f : Feed}, (c = .exact → f.Punctual) → R f [] [] f.hangUp
  setHorizon : ∀ {f : Feed} (id : UInt64), (c = .exact → f.Punctual) → R f [.horizon id] [] (f.setHorizon id)
  disconnect : ∀ {f : Feed}, (c = .exact → f.Punctual) → R f [.ended] [] f.disconnect
  attach : ∀ {f : Feed}, (c = .exact → f.Punctual) → R f [.ended] [] f.attach

/-- It leads to a feed that is punctual again. -/
def Leads (c : Clock) (R : Feed → List Mark → List Delivery → Feed → Prop) (f : Feed) (ins : List Mark)
    (ds : List Delivery) (g : Feed) : Prop := R f ins ds g ∧ (c = .exact → g.Punctual)

namespace Carries

variable {R : Feed → List Mark → List Delivery → Feed → Prop}

/-- One after the other falls due; what stays is held throughout. -/
theorem releases (hR : Carries c R) {hs kept : List Held} {t : Instant} (hheld : f.held = kept ++ hs)
    (hp : c = .exact → (kept ++ hs).Pairwise (fun a b => a.due ≤ b.due) ∧ (∀ x ∈ kept, t < x.due) ∧
      ∀ x ∈ hs, f.now ≤ x.due) :
    R f [] [] ((hs.filter (·.due ≤ t)).foldl Feed.release { f with held := kept ++ hs.filter (t < ·.due) }) := by
  induction hs generalizing f kept with
  | nil =>
    have hsame : ({ f with held := kept ++ [] } : Feed) = f := by rw [← hheld]
    simp only [List.filter_nil, List.foldl_nil, hsame]
    exact hR.refl f
  | cons h r ih =>
    by_cases hdue : h.due ≤ t
    · have hfirst : (h :: r).filter (·.due ≤ t) = h :: r.filter (·.due ≤ t) := by simp [hdue]
      have hrest : (h :: r).filter (t < ·.due) = r.filter (t < ·.due) := by simp [hdue]
      have hrelease : R f [] [] ({ f with held := kept ++ r }.release h) := by
        refine hR.release hheld fun hc => ?_
        obtain ⟨hordered, hkept, hnow⟩ := hp hc
        refine ⟨hnow h List.mem_cons_self, List.forall_mem_append.mpr ⟨fun x hx => ?_, fun x hx => ?_⟩⟩
        · exact Int.le_of_lt (Int.lt_of_le_of_lt hdue (hkept x hx))
        · exact (List.pairwise_cons.mp (List.pairwise_append.mp hordered).2.1).1 x hx
      have hall := ih (f := { f with held := kept ++ r }.release h) rfl fun hc => by
        obtain ⟨hordered, hkept, -⟩ := hp hc
        refine ⟨hordered.sublist ((List.sublist_cons_self h r).append_left kept), hkept, ?_⟩
        exact (List.pairwise_cons.mp (List.pairwise_append.mp hordered).2.1).1
      rw [hfirst, hrest]
      exact hR.trans hrelease hall
    · have hlater := Int.not_le.mp hdue
      have hfirst : (h :: r).filter (·.due ≤ t) = r.filter (·.due ≤ t) := by simp [hdue]
      have hrest : (h :: r).filter (t < ·.due) = h :: r.filter (t < ·.due) := by simp [hlater]
      have hsnoc : f.held = (kept ++ [h]) ++ r := by rw [hheld, List.append_assoc, List.singleton_append]
      have hall := ih hsnoc fun hc => by
        obtain ⟨hordered, hkept, hnow⟩ := hp hc
        rw [List.append_assoc, List.singleton_append]
        exact ⟨hordered, List.forall_mem_append.mpr ⟨hkept, by simpa using hlater⟩,
          fun x hx => hnow x (List.mem_cons_of_mem h hx)⟩
      rw [List.append_assoc, List.singleton_append] at hall
      rw [hfirst, hrest]
      exact hall

theorem advance (hR : Carries c R) {t : Instant} (h : c = .exact → f.Punctual ∧ f.now ≤ t) :
    Leads c R f [] [] (f.advance t) := by
  refine ⟨?_, fun hc => advance_punctual (h hc).1 (h hc).2⟩
  obtain ⟨q, n, heq, hn⟩ :=
    foldl_release (f.held.filter (·.due ≤ t)) { f with held := f.held.filter (t < ·.due) }
  have hadvance : f.advance t = { f with held := f.held.filter (t < ·.due), queue := q, now := t } := by
    rw [Feed.advance, heq]
  have hall := hR.releases (t := t) (List.nil_append f.held).symm fun hc =>
    ⟨(h hc).1.ordered, List.forall_mem_nil _, fun x hx => Int.le_of_lt ((h hc).1.ahead x hx)⟩
  rw [List.nil_append, heq] at hall
  rw [hadvance]
  exact hR.trans hall (hR.tick (t := t) fun hc => ⟨hn t (h hc).2 (by simp), by simp⟩)

theorem sleep (hR : Carries c R) (h : c = .exact → f.Punctual) (ms : Nat) : Leads c R f [] [] (f.sleep ms) :=
  hR.advance fun hc => ⟨h hc, Int.le_add_of_nonneg_right (Int.natCast_nonneg ms)⟩

theorem asks (hR : Carries c R) (h : c = .exact → f.Punctual) : Leads c R f [] f.poll.2.told f.poll.1 :=
  ⟨hR.poll h, (poll_reaches h).punctual⟩

theorem pollAt (hR : Carries c R) (deadline : Instant) (ts : List Instant) (h : c = .exact → f.Punctual)
    (hts : c = .exact → (f.now :: ts).Pairwise (· ≤ ·) ∧ ∀ t ∈ f.now :: ts, t ≤ deadline) :
    Leads c R f [] (f.pollAt deadline ts).2.told (f.pollAt deadline ts).1 := by
  induction ts generalizing f with
  | nil => exact hR.advance fun hc => ⟨h hc, (hts hc).2 f.now List.mem_cons_self⟩
  | cons t r ih =>
    obtain ⟨hadvance, hready⟩ := hR.advance (t := t) fun hc =>
      ⟨h hc, (List.pairwise_cons.mp (hts hc).1).1 t List.mem_cons_self⟩
    obtain ⟨hpoll, hafter⟩ := hR.asks hready
    have hnow : (f.advance t).poll.1.now = t := poll_now (f.advance t)
    have htold := hR.trans hadvance hpoll
    unfold Feed.pollAt
    cases hd : (f.advance t).poll with
    | mk g d =>
      rw [hd] at htold hafter hnow
      cases d with
      | idle =>
        obtain ⟨hall, hlast⟩ := ih hafter fun hc => by
          obtain ⟨hordered, hdeadline⟩ := hts hc
          rw [hnow]
          exact ⟨(List.pairwise_cons.mp hordered).2, fun x hx => hdeadline x (List.mem_cons_of_mem _ hx)⟩
        exact ⟨hR.trans htold hall, hlast⟩
      | event e => exact ⟨htold, hafter⟩
      | fault x => exact ⟨htold, hafter⟩

theorem await (hR : Carries c R) (h : c = .exact → f.Punctual) (ms : Nat) :
    Leads c R f [] (f.await ms).2.told (f.await ms).1 := by
  obtain ⟨hpoll, hafter⟩ := hR.asks h
  unfold Feed.await
  cases hd : f.poll with
  | mk g d =>
    rw [hd] at hpoll hafter
    cases d with
    | idle =>
      obtain ⟨hall, hlast⟩ := hR.pollAt (g.now + ms)
        ((g.held.map (·.due)).filter (· < g.now + ms)) hafter fun hc => by
          refine ⟨List.pairwise_cons.mpr ⟨fun t ht => ?_, ?_⟩, fun t ht => ?_⟩
          · obtain ⟨x, hx, rfl⟩ := List.mem_map.mp (List.mem_filter.mp ht).1
            exact Int.le_of_lt ((hafter hc).ahead x hx)
          · exact (List.pairwise_map.mpr (hafter hc).ordered).filter _
          · rcases List.mem_cons.mp ht with rfl | ht
            · exact Int.le_add_of_nonneg_right (Int.natCast_nonneg ms)
            · exact Int.le_of_lt (by simpa using (List.mem_filter.mp ht).2)
      exact ⟨hR.trans hpoll hall, hlast⟩
    | event e => exact ⟨hpoll, hafter⟩
    | fault x => exact ⟨hpoll, hafter⟩

theorem connect (hR : Carries c R) (h : c = .exact → f.Punctual) (site : Site) :
    Leads c R f (f.inputs (.connect site)) [] (f.connect site).1 := by
  unfold inputs Feed.connect
  dsimp only
  cases look? f.config site with
  | none => exact hR.sleep h _
  | some k =>
    obtain ⟨hsleep, hafter⟩ := hR.sleep h (k * f.config.backoff)
    dsimp only
    cases site with
    | listening after => exact ⟨hR.trans hsleep (hR.attach hafter), fun _ => .of_held_nil rfl⟩
    | nothing | refusing => exact ⟨hsleep, hafter⟩

/-- What a turn does comes about so, too. -/
theorem turn (hR : Carries c R) (h : c = .exact → f.Punctual) (a : Turn) :
    Leads c R f (f.inputs a) ((f.reply? a).toList.flatMap Delivery.told) (f.turn a) := by
  cases a with
  | receive bytes => exact ⟨hR.receive bytes h, fun hc => (h hc).congr rfl rfl rfl⟩
  | hangUp =>
    refine ⟨hR.hangUp h, fun hc => ?_⟩
    obtain ⟨w, hw⟩ := hangUp_eq f
    show f.hangUp.Punctual
    rw [hw]
    exact (h hc).congr rfl rfl rfl
  | sleep ms => exact hR.sleep h ms
  | poll =>
    have hpoll := hR.asks h
    rw [← List.flatMap_singleton Delivery.told] at hpoll
    exact hpoll
  | await ms =>
    have hawait := hR.await h ms
    rw [← List.flatMap_singleton Delivery.told] at hawait
    exact hawait
  | setHorizon id => exact ⟨hR.setHorizon id h, fun hc => (h hc).congr rfl rfl rfl⟩
  | attach => exact ⟨hR.attach h, fun _ => .of_held_nil rfl⟩
  | disconnect => exact ⟨hR.disconnect h, fun _ => .of_held_nil rfl⟩
  | connect site => exact hR.connect h site

end Carries

/-! ## Runs -/

/-- Small steps that take from outside what is in `ins` and tell `ds`. -/
def Takes (c : Clock) (f : Feed) (ins : List Mark) (ds : List Delivery) (g : Feed) : Prop :=
  ∃ l, Steps c f l g ∧ l.inputs = ins ∧ l.told = ds

theorem Reaches.takes {ins : List Mark} {ds : List Delivery} (h : Reaches c f ins ds g) : Takes c f ins ds g := by
  obtain ⟨l, hl, hin, htold, -⟩ := h
  exact ⟨l, hl, hin, htold⟩

theorem Takes.step (h : Step c f ms g) : Takes c f (ms.filterMap Mark.input?) (ms.flatMap Mark.told) g := by
  refine ⟨_, .one h, Timeline.inputs_at ms g, ?_⟩
  rw [Timeline.told, List.flatMap_map]

theorem steps_carry (c : Clock) : Carries c (Takes c) where
  refl f := ⟨[], .refl f, rfl, rfl⟩
  trans := by
    rintro f g g' _ _ _ _ ⟨l, hl, rfl, rfl⟩ ⟨m, hm, rfl, rfl⟩
    exact ⟨l ++ m, hl.trans hm, Timeline.inputs_append l m, Timeline.told_append l m⟩
  poll h := (poll_reaches h).takes
  release := by
    intro f before after h hheld hnow
    obtain ⟨hin, htold⟩ := releaseMarks_silent f h
    have hstep := Takes.step (.release hheld hnow)
    rwa [hin, htold] at hstep
  tick h := Takes.step (.tick h)
  receive bytes h := Takes.step (.act h (.receive _ bytes))
  hangUp h := Takes.step (.act h (.hangUp _))
  setHorizon id h := Takes.step (.act h (.horizon _ id))
  disconnect h := Takes.step (.act h (.disconnect _))
  attach h := Takes.step (.act h (.attach _))

/-- A timeline of a run: turn by turn its steps lead to the feed that the turn leaves, bring what the turn
brings from outside, and tell what the turn answers. -/
inductive Course (c : Clock) : Feed → List Turn → Timeline → Prop where
  | nil (f : Feed) : Course c f [] []
  | cons {f : Feed} {a : Turn} {turns : List Turn} {l m : Timeline} : Steps c f l (f.turn a) →
      l.inputs = f.inputs a → l.told = (f.reply? a).toList.flatMap Delivery.told →
      Course c (f.turn a) turns m → Course c f (a :: turns) (l ++ m)

/-- Every run has a timeline. -/
theorem exists_course (h : c = .exact → f.Punctual) (turns : List Turn) :
    (∃ l, Course c f turns l) ∧ (c = .exact → (f.run turns).Punctual) := by
  induction turns generalizing f with
  | nil => exact ⟨⟨[], .nil f⟩, h⟩
  | cons a r ih =>
    obtain ⟨⟨l, hl, hin, htold⟩, hturn⟩ := (steps_carry c).turn h a
    obtain ⟨⟨m, hm⟩, hrun⟩ := ih hturn
    exact ⟨⟨l ++ m, .cons hl hin htold hm⟩, hrun⟩

namespace Course

variable {turns : List Turn}

theorem steps (h : Course c f turns l) : Steps c f l (f.run turns) := by
  induction h with
  | nil => exact .refl _
  | cons hl _ _ _ ih => exact hl.trans ih

/-- What is handed over in a timeline is what the run delivers. -/
theorem delivered (h : Course c f turns l) : l.delivered = f.deliveries turns := by
  induction h with
  | nil => rfl
  | cons _ _ htold _ ih =>
    rw [Timeline.delivered_append, ih, Timeline.delivered_eq_told, htold, ← turnEvent?_eq]
    rfl

end Course

/-- A session that goes on is not over and sees no horizon set. -/
theorem inputs_within {a : Turn} (ha : a.isWithin f.config = true) :
    ∀ m ∈ f.inputs a, m.isEnd = false ∧ m.isHorizon = false := by
  cases a with
  | receive => simp [inputs, Mark.isEnd, Mark.isHorizon]
  | connect site =>
    cases site with
    | listening after =>
      have hnone : look? f.config (.listening after) = none := Option.isNone_iff_eq_none.mp ha
      simp [inputs, connect, hnone]
    | nothing => simp [inputs, connect, look?, Site.appears]
    | refusing => cases hlook : look? f.config .refusing <;> simp [inputs, connect, hlook]
  | setHorizon | attach | disconnect => cases ha
  | _ => simp [inputs]

theorem Course.within {turns : List Turn} (h : Course c f turns l)
    (session : ∀ a ∈ turns, a.isWithin f.config = true) :
    ∀ m ∈ l, m.mark.isEnd = false ∧ m.mark.isHorizon = false := by
  induction h with
  | nil => simp
  | cons hl hin _ _ ih =>
    obtain ⟨ha, hr⟩ := List.forall_mem_cons.mp session
    have hinputs := inputs_within ha
    rw [← hin] at hinputs
    refine List.forall_mem_append.mpr ⟨fun m hm => ?_, ih (hl.config.symm ▸ hr)⟩
    have hinput (a : Mark) (ha : m.mark.input? = some a) := hinputs a (List.mem_filterMap.mpr ⟨m, hm, ha⟩)
    cases hmark : m.mark with
    | horizon i => exact hinput _ (by rw [hmark]; rfl)
    | ended => exact hinput _ (by rw [hmark]; rfl)
    | _ => exact ⟨rfl, rfl⟩

end Fabric.Feed
