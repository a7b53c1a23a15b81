import Fabric.Monitor
import Fabric.Proofs.Sequence

/-! Keeping abreast of the feed. Take a monitor that does not debounce, whose feed has delivered
some states of ports already, and an engine that goes on with what it delivers. What the feed reads
from then on is let in record by record and worked off piece by piece; a piece that says of a port
what was said last of it, or else delivered before, is dropped. So the engine has of a port the state
that was reported last, unless all that was reported of it is what had been delivered before
(`stateAfter`). -/

namespace Fabric

open Network

/-- What a record says of a port: which one it is to the feed, and whether it is up. Of the ports
that a record lists no more count than fit into the queue. -/
def Event.portNews (capacity : Nat) (place : Endpoint) (e : Event) : List (PortId × Bool) :=
  match e.portState?, e.portsStatus? with
  | some (.portState s d port up), _ => if place = ⟨s, port⟩ then [(⟨d, port⟩, up)] else []
  | none, some (.portsStatus s d ports) =>
    if place.switch = s then
      ((ports.toList.take capacity).filter (·.1 = place.port)).map fun x => (⟨d, x.1⟩, x.2)
    else []
  | _, _ => []

/-- The record that is let in. -/
def Ruling.event? : Ruling → Option Event
  | admitted e => some e
  | _ => none

@[simp] theorem Ruling.event?_admitted (e : Event) : event? (admitted e) = some e := rfl

@[simp] theorem Ruling.event?_covered (e : Event) : event? (covered e) = none := rfl

theorem Ruling.number?_eq : number? = fun r => r.event?.bind fun e => e.id.map UInt64.toNat := by
  funext r
  cases r <;> rfl

theorem inSequence_subset (floor : Option UInt64) (es : List Event) : inSequence floor es ⊆ es := by
  induction es generalizing floor with
  | nil => exact List.Subset.refl _
  | cons e r ih =>
    unfold inSequence
    split
    · split
      · exact List.subset_cons_of_subset e (ih _)
      · split
        · exact List.cons_subset_cons e (ih _)
        · exact List.nil_subset _
    · exact List.cons_subset_cons e (ih _)

/-- Without a gap what is let in is what comes in sequence. -/
theorem Ruled.event?_eq {floor : Option UInt64} {es : List Event} {rs : List Ruling} (h : Ruled floor es rs)
    (hgap : ∀ r ∈ rs, r.isGap = false) : rs.filterMap Ruling.event? = inSequence floor es := by
  induction h with
  | nil => rfl
  | @cons floor e r es rs hr _ ih =>
    have hrest := ih fun x hx => hgap x (by simp [hx])
    cases hr with
    | unnumbered hid => simp [hrest, inSequence, hid, Ruling.floorAfter]
    | first hid => simp [hrest, inSequence, hid, Ruling.floorAfter]
    | covered hid hle =>
      rw [List.filterMap_cons_none (Ruling.event?_covered e), hrest]
      simp [inSequence, hid, hle, Ruling.floorAfter]
    | @next last i _ hid hsucc =>
      have hlt : ¬ i ≤ last := by
        rw [UInt64.le_iff_toNat_le]
        omega
      have hnext : i = last + 1 := by
        have hbound := i.toNat_lt
        rw [← UInt64.toNat_inj, UInt64.toNat_add, UInt64.toNat_one, Nat.mod_eq_of_lt (by omega), hsucc]
      simp only [List.filterMap_cons, Ruling.event?_admitted, hrest, inSequence, hid, if_neg hlt, if_pos hnext,
        Ruling.floorAfter, Option.some_or]
    | gap => cases hgap _ List.mem_cons_self

/-- Without a gap no number is past those that are let in. -/
theorem Ruled.number_le {last : UInt64} {es : List Event} {rs : List Ruling} (h : Ruled (some last) es rs)
    (hgap : ∀ r ∈ rs, r.isGap = false) :
    ∀ e ∈ es, ∀ i, e.id = some i → i.toNat ≤ last.toNat + (rs.filterMap Ruling.number?).length := by
  generalize hfloor : some last = floor at h
  induction h generalizing last with
  | nil => simp
  | @cons floor e r es rs hr _ ih =>
    subst hfloor
    have hrest (last' : UInt64) (hlast' : some last' = r.floorAfter (some last)) :=
      ih (fun x hx => hgap x (by simp [hx])) hlast'
    intro x hx i hi
    rcases List.mem_cons.mp hx with rfl | hx
    · cases hr with
      | unnumbered hid => simp [hid] at hi
      | covered hid hle =>
        obtain rfl := Option.some.inj (hid.symm.trans hi)
        exact Nat.le_add_right_of_le (UInt64.le_iff_toNat_le.mp hle)
      | next hid hsucc =>
        obtain rfl := Option.some.inj (hid.symm.trans hi)
        rw [List.filterMap_cons_some (Ruling.number?_admitted hid), List.length_cons]
        omega
      | gap => cases hgap _ List.mem_cons_self
    · cases hr with
      | unnumbered hid =>
        have hle := hrest last (by simp [Ruling.floorAfter, hid]) x hx i hi
        rwa [List.filterMap_cons_none (by rw [Ruling.number?, hid, Option.map_none])]
      | covered hid _ => exact hrest last rfl x hx i hi
      | @next _ j _ hid hsucc =>
        have hle := hrest j (by simp [Ruling.floorAfter, hid]) x hx i hi
        rw [List.filterMap_cons_some (Ruling.number?_admitted hid), List.length_cons]
        omega
      | gap => cases hgap _ List.mem_cons_self

/-- In these records ids and names of switches determine each other. -/
def Named (es : List Event) : Prop :=
  ∀ e ∈ es, ∀ e' ∈ es, e.dpId.isSome = true → e'.dpId.isSome = true →
    (e.dpId = e'.dpId ↔ e.switchName = e'.switchName)

theorem Named.subset {es l : List Event} (h : Named l) (hsub : es ⊆ l) : Named es :=
  fun x hx y hy => h x (hsub hx) y (hsub hy)

/-- The engine once it has taken in what there is, if there is anything. -/
def Engine.heed (g : Engine) : Option Event → Engine
  | some e => (g.dispatch e).1
  | none => g

/-- The state of a port after some news of it, when the feed knew a state already: as it was before
if there is nothing new, and the last that is new otherwise. -/
def stateAfter (known : Table PortId Bool) (before : Option Bool) (news : List (PortId × Bool)) :
    Option Bool :=
  if ∀ x ∈ news, known.get? x.1 = some x.2 then before else news.getLast?.map (·.2)

/-- A report is dropped if it repeats the last one, or else what was known. -/
theorem stateAfter_snoc {known : Table PortId Bool} {news : List (PortId × Bool)} {id : PortId}
    (hid : ∀ x ∈ news, x.1 = id) (before : Option Bool) (up : Bool) :
    stateAfter known before (news ++ [(id, up)]) =
      if (news.getLast?.map (·.2)).or (known.get? id) = some up then stateAfter known before news
      else some up := by
  rcases List.eq_nil_or_concat news with rfl | ⟨init, ⟨id', last⟩, rfl⟩
  · simp [stateAfter]
  · obtain rfl : id' = id := hid (id', last) (by simp)
    by_cases hlast : last = up
    · subst hlast
      simp only [stateAfter, List.concat_eq_append, List.getLast?_concat, Option.map_some, Option.some_or,
        if_true]
      congr 1
      simp
    · have hnew : ¬ ∀ x ∈ init.concat (id', last) ++ [(id', up)], known.get? x.1 = some x.2 := by
        intro hall
        have hold := hall (id', last) (by simp)
        have hup := hall (id', up) (by simp)
        exact hlast (Option.some.inj (hold.symm.trans hup))
      rw [stateAfter, if_neg hnew]
      simp [hlast]

/-- The last report counts as long as nothing else was known than the state that was there. -/
theorem stateAfter_of_agree {known : Table PortId Bool} {before : Option Bool} {news : List (PortId × Bool)}
    (h : ∀ x ∈ news, ∀ up, known.get? x.1 = some up → before = some up) :
    stateAfter known before news = (news.getLast?.map (·.2)).or before := by
  rcases List.eq_nil_or_concat news with rfl | ⟨init, x, rfl⟩
  · simp [stateAfter]
  · rw [List.concat_eq_append] at h ⊢
    unfold stateAfter
    split
    next hall =>
      have hx := h x (by simp) x.2 (hall x (by simp))
      simp [hx]
    next => simp

namespace Feed

variable {base : Monitor} {f : Feed} {g : Engine} {e : Event} {es : List Event}

/-! ## The pieces of a record -/

/-- The events that are worked off in place of a record. -/
def pieces (capacity : Nat) (e : Event) : List Event :=
  match parts? e with
  | some es => es.take capacity
  | none => [e]

/-- An event that does not list ports, or says something else first. -/
def Whole (e : Event) : Prop := e.portState? = none → e.portsStatus? = none

theorem mem_pieces {capacity : Nat} {x : Event} (h : x ∈ pieces capacity e) :
    Whole x ∧ x.dpId = e.dpId ∧ x.switchName = e.switchName := by
  unfold pieces at h
  cases hparts : parts? e with
  | some es =>
    rw [hparts] at h
    have hx := List.mem_of_mem_take h
    have hplain := plain_parts (N := fun _ _ => True) (fun _ _ => trivial) hparts x hx
    obtain ⟨_, ⟨_, _, _, _, _, rfl⟩ | ⟨_, _, _, rfl⟩⟩ := parts?_eq_some hparts
    · obtain ⟨_, _, rfl⟩ := List.mem_map.mp hx
      exact ⟨hplain.one, rfl, rfl⟩
    · obtain ⟨_, _, rfl⟩ := List.mem_map.mp hx
      exact ⟨hplain.one, rfl, rfl⟩
  | none =>
    rw [hparts] at h
    obtain rfl := List.mem_singleton.mp h
    exact ⟨(plain_of_parts?_none (N := fun _ _ => True) (fun _ _ => trivial) hparts).one, rfl, rfl⟩

theorem portState?_ofPort {d : UInt64} (hd : e.dpId = some d) (port : UInt32) (up : Bool) :
    (e.ofPort port up).portState? = some (.portState e.switchName d port up) := by
  simp [Event.portState?, Event.ofPort, Event.bare, hd, Event.PortChange.isUp, Event.switchName]

/-- What the pieces say of a port is what the record says of it. -/
theorem portNews_pieces (capacity : Nat) (place : Endpoint) (e : Event) :
    (pieces capacity e).flatMap (Event.portNews capacity place) = e.portNews capacity place := by
  unfold pieces
  cases hparts : parts? e with
  | none => simp
  | some es =>
    dsimp only
    obtain ⟨hport, ⟨d, ports, hd, _, hports, rfl⟩ | ⟨ls, hports, _, rfl⟩⟩ := parts?_eq_some hparts
    · have hpiece (x : UInt32 × Bool) : (e.ofPort x.1 x.2).portNews capacity place =
          if place = ⟨e.switchName, x.1⟩ then [(⟨d, x.1⟩, x.2)] else [] := by
        rw [Event.portNews, portState?_ofPort hd]
      simp only [← List.map_take, List.flatMap_map, hpiece]
      simp only [Event.portNews, hport, hports]
      by_cases hs : place.switch = e.switchName
      · rw [if_pos hs]
        induction ports.toList.take capacity with
        | nil => rfl
        | cons x r ih =>
          rw [List.flatMap_cons, ih]
          by_cases hp : place.port = x.1
          · simp [Endpoint.eq_iff, hs, hp]
          · simp [Endpoint.eq_iff, hp, Ne.symm hp]
      · simp [Endpoint.eq_iff, hs]
    · have hpiece (l : Learn) : (e.ofLearn l).portNews capacity place = [] := rfl
      simp only [← List.map_take, List.flatMap_map, hpiece]
      simp [Event.portNews, hport, hports]

/-! ## What the engine comes to -/

/-- The state that some events report of a port, by the last of them that does. -/
def lastUp? (id : PortId) (es : List Event) : Option Bool := (es.filterMap (Event.upOf? id)).getLast?

/-- The feed and the engine, with `es` worked off since the monitor was `base`. -/
structure Follows (base : Monitor) (es : List Event) (f : Feed) (g : Engine) : Prop where
  config : f.config = base.feed.config
  undelayed : Undelayed f
  whole : ∀ e ∈ es, Whole e
  previous : ∀ id, f.previous.get? id = (lastUp? id es).or (base.feed.previous.get? id)
  up : Named es → ∀ place, g.network.upState? place =
    stateAfter base.feed.previous (base.engine.network.upState? place)
      (es.flatMap (Event.portNews base.feed.config.capacity place))

theorem portNews_of_none (h : e.portState? = none) (he : Whole e) (capacity : Nat) (place : Endpoint) :
    e.portNews capacity place = [] := by
  rw [Event.portNews, h, he h]

/-- News of a port is news of the place that goes by the name of its switch. -/
theorem filterMap_upOf? {d : UInt64} {s : String} (hes : ∀ x ∈ es, Whole x)
    (hname : ∀ x ∈ es, x.dpId.isSome = true → (x.dpId = some d ↔ x.switchName = s)) (port : UInt32)
    (capacity : Nat) :
    es.flatMap (Event.portNews capacity ⟨s, port⟩) =
      (es.filterMap (Event.upOf? ⟨d, port⟩)).map fun up => (⟨d, port⟩, up) := by
  induction es with
  | nil => rfl
  | cons x r ih =>
    rw [List.flatMap_cons, ih (fun y hy => hes y (by simp [hy])) (fun y hy => hname y (by simp [hy]))]
    cases hport : x.portState? with
    | none =>
      have hup : x.upOf? ⟨d, port⟩ = none := by simp [Event.upOf?, Event.port?, hport]
      rw [portNews_of_none hport (hes x (by simp)), List.filterMap_cons_none hup]
      rfl
    | some rep =>
      obtain ⟨d', port', up, hd, rfl⟩ := Event.portState?_eq_some hport
      have hiff := hname x (by simp) (by simp [hd])
      have hnews : x.portNews capacity ⟨s, port⟩ =
          if (⟨s, port⟩ : Endpoint) = ⟨x.switchName, port'⟩ then [(⟨d', port'⟩, up)] else [] := by
        rw [Event.portNews, hport]
      have hup : x.upOf? ⟨d, port⟩ = if (⟨d', port'⟩ : PortId) = ⟨d, port⟩ then some up else none := by
        simp [Event.upOf?, Event.port?, hport]
      rw [hd, Option.some.injEq] at hiff
      by_cases hx : d' = d ∧ port' = port
      · obtain ⟨rfl, rfl⟩ := hx
        rw [hnews, if_pos (by rw [hiff.mp rfl]), List.filterMap_cons_some (hup.trans (if_pos rfl))]
        rfl
      · have hother : ¬ (⟨s, port⟩ : Endpoint) = ⟨x.switchName, port'⟩ := by
          intro h
          obtain ⟨hs, hp⟩ := Endpoint.eq_iff.mp h
          exact hx ⟨hiff.mpr hs.symm, hp.symm⟩
        rw [hnews, if_neg hother, List.filterMap_cons_none (hup.trans (if_neg (by simpa using hx)))]
        rfl

theorem lastUp?_snoc (id : PortId) (es : List Event) (e : Event) :
    lastUp? id (es ++ [e]) = (e.upOf? id).or (lastUp? id es) := by
  unfold lastUp?
  rw [List.filterMap_append, List.getLast?_append]
  cases h : e.upOf? id with
  | none => simp [h]
  | some up => simp [h]

namespace Follows

theorem whole_snoc (h : Follows base es f g) (he : Whole e) : ∀ x ∈ es ++ [e], Whole x := by
  intro x hx
  rcases List.mem_append.mp hx with hx | hx
  · exact h.whole x hx
  · rw [List.mem_singleton.mp hx]
    exact he

/-- An event that is not about the state of a port goes through. -/
theorem other (h : Follows base es f g) (he : Whole e) (hport : e.portState? = none) :
    Follows base (es ++ [e]) f (g.dispatch e).1 where
  config := h.config
  undelayed := h.undelayed
  whole := h.whole_snoc he
  previous id := by
    have hid : e.upOf? id = none := by simp [Event.upOf?, Event.port?, hport]
    rw [lastUp?_snoc, hid, Option.none_or, h.previous]
  up hnamed place := by
    rw [List.flatMap_append, List.flatMap_singleton, portNews_of_none hport he, List.append_nil,
      ← h.up (hnamed.subset (List.subset_append_left es [e])) place]
    exact Engine.upState?_dispatch hport (he hport) g place

/-- Neither the wire nor the clock matters. -/
theorem same {f' : Feed} {g' : Engine} (h : Follows base es f g) (hconfig : f'.config = f.config)
    (hheld : f'.held = f.held) (hprevious : f'.previous = f.previous)
    (hup : ∀ place, g'.network.upState? place = g.network.upState? place) : Follows base es f' g' where
  config := hconfig.trans h.config
  undelayed := ⟨by rw [hconfig]; exact h.undelayed.1, hheld.trans h.undelayed.2⟩
  whole := h.whole
  previous id := by rw [hprevious, h.previous]
  up hnamed place := by rw [hup, h.up hnamed]

/-- What was said so far of a place is what the feed knows of the port. -/
theorem previous_eq (h : Follows base es f g) (hnamed : Named (es ++ [e])) {d : UInt64} (hd : e.dpId = some d)
    (port : UInt32) :
    let news := es.flatMap (Event.portNews base.feed.config.capacity ⟨e.switchName, port⟩)
    f.previous.get? ⟨d, port⟩ = (news.getLast?.map (·.2)).or (base.feed.previous.get? ⟨d, port⟩) ∧
      ∀ x ∈ news, x.1 = ⟨d, port⟩ := by
  have hname : ∀ x ∈ es, x.dpId.isSome = true → (x.dpId = some d ↔ x.switchName = e.switchName) := by
    intro x hx hsome
    rw [← hd]
    exact hnamed x (by simp [hx]) e (by simp) hsome (by simp [hd])
  have hsame := filterMap_upOf? h.whole hname port base.feed.config.capacity
  rw [hsame]
  refine ⟨?_, fun x hx => ?_⟩
  · rw [h.previous, lastUp?]
    simp [List.getLast?_map, Function.comp_def]
  · obtain ⟨_, _, rfl⟩ := List.mem_map.mp hx
    rfl

/-- An event about the state of a port goes through unless it says what is known. -/
theorem news (h : Follows base es f g) (he : Whole e) {d : UInt64} {port : UInt32} {up : Bool}
    (hd : e.dpId = some d) (hport : e.portState? = some (.portState e.switchName d port up)) :
    Follows base (es ++ [e]) (f.dedupe ⟨d, port⟩ up e.believed).1
      (g.heed (f.dedupe ⟨d, port⟩ up e.believed).2) where
  config := h.config
  undelayed := h.undelayed
  whole := h.whole_snoc he
  previous id := by
    have hid : e.upOf? id = if (⟨d, port⟩ : PortId) = id then some up else none := by
      simp [Event.upOf?, Event.port?, hport]
    rw [lastUp?_snoc, hid]
    refine (Table.get?_insert f.previous ⟨d, port⟩ id up).trans ?_
    by_cases hx : id = ⟨d, port⟩
    · rw [if_pos hx, if_pos hx.symm]
      rfl
    · rw [if_neg hx, if_neg (Ne.symm hx), Option.none_or, h.previous]
  up hnamed place := by
    have hbefore := h.up (hnamed.subset (List.subset_append_left es [e])) place
    have hnews : e.portNews base.feed.config.capacity place =
        if place = ⟨e.switchName, port⟩ then [(⟨d, port⟩, up)] else [] := by
      rw [Event.portNews, hport]
    have hdispatch := Engine.upState?_dispatch_portState (e := e.believed) hport g place
    rw [List.flatMap_append, List.flatMap_singleton, hnews, dedupe]
    by_cases hplace : place = ⟨e.switchName, port⟩
    · subst hplace
      obtain ⟨hlast, hids⟩ := h.previous_eq hnamed hd port
      rw [if_pos rfl, stateAfter_snoc hids, ← hlast]
      by_cases hprev : f.previous.get? ⟨d, port⟩ = some up
      · rw [if_pos hprev, if_pos hprev]
        exact hbefore
      · rw [if_neg hprev, if_neg hprev]
        exact hdispatch.trans (if_pos rfl)
    · rw [if_neg hplace, List.append_nil, ← hbefore]
      by_cases hprev : f.previous.get? ⟨d, port⟩ = some up
      · rw [if_pos hprev]
        rfl
      · rw [if_neg hprev]
        exact hdispatch.trans (if_neg hplace)

theorem settle (h : Follows base es f g) (he : Whole e) :
    Follows base (es ++ [e]) (f.settle e).1 (g.heed (f.settle e).2) := by
  cases hport : e.portState? with
  | none =>
    rw [Feed.settle, hport]
    exact h.other he hport
  | some r =>
    obtain ⟨d, port, up, hd, rfl⟩ := Event.portState?_eq_some hport
    rw [settle_portState h.undelayed hport]
    exact h.news he hd hport

/-- Queued events are worked off until one is delivered. -/
theorem drain {q : List Event} (h : Follows base es f g) (hq : ∀ e ∈ q, Whole e) :
    ∃ es', es ++ q = es' ++ (f.drain q).1.queue ∧ Follows base es' (f.drain q).1 (g.heed (f.drain q).2) := by
  induction q generalizing f es with
  | nil => exact ⟨es, rfl, h.same rfl rfl rfl fun _ => rfl⟩
  | cons e r ih =>
    have hr : Follows base es { f with queue := r } g := h.same rfl rfl rfl fun _ => rfl
    have hstep := hr.settle (hq e (by simp))
    have hqueue := (settle_same { f with queue := r } e).2
    have hsplit : es ++ e :: r = es ++ [e] ++ r := by simp
    unfold Feed.drain
    split
    next f' x heq =>
      rw [heq] at hstep hqueue
      dsimp only at hqueue
      exact ⟨es ++ [e], by rw [hqueue, hsplit], hstep⟩
    next f' heq =>
      rw [heq] at hstep
      obtain ⟨es', hes, hall⟩ := ih hstep fun x hx => hq x (by simp [hx])
      exact ⟨es', hsplit.trans hes, hall⟩

/-- A record is worked off, piece by piece. -/
theorem take (h : Follows base es f g) (hq : f.queue = []) (e : Event) :
    ∃ es', es ++ pieces f.config.capacity e = es' ++ (f.take e).1.queue ∧
      Follows base es' (f.take e).1 (g.heed (f.take e).2) := by
  have hwhole : ∀ x ∈ pieces f.config.capacity e, Whole x := fun x hx => (mem_pieces hx).1
  unfold pieces at hwhole ⊢
  unfold Feed.take
  cases hparts : parts? e with
  | some l =>
    rw [hparts] at hwhole
    have hpush : f.push l = { f with queue := l.take f.config.capacity } := by
      unfold push
      rw [hq, List.append_nil]
    have hqueued : Follows base es { f with queue := l.take f.config.capacity } g :=
      h.same rfl rfl rfl fun _ => rfl
    dsimp only
    rw [hpush]
    exact hqueued.drain hwhole
  | none =>
    rw [hparts] at hwhole
    have hqueue : (f.settle e).1.queue = [] := by rw [(settle_same f e).2, hq]
    dsimp only
    exact ⟨es ++ [e], by rw [hqueue, List.append_nil], h.settle (hwhole e (by simp))⟩

end Follows

/-! ## Lines -/

/-- The feed and the engine, with `lines` read since the monitor was `base`: there was no gap among
them, and what was let in is worked off but for what is queued. -/
structure Abreast (base : Monitor) (lines : List (List UInt8)) (rs : List Ruling) (es : List Event) (f : Feed)
    (g : Engine) : Prop where
  ruled : Ruled base.feed.horizon (records lines) rs
  gapless : ∀ r ∈ rs, r.isGap = false
  floor : f.floor = rs.foldl Ruling.floorAfter base.feed.horizon
  worked : (rs.filterMap Ruling.event?).flatMap (pieces base.feed.config.capacity) = es ++ f.queue
  follows : Follows base es f g

/-- What the feed comes to when it is asked: either a gap, with nothing left to work off before it,
or it has read some lines and kept abreast. -/
def Answered (base : Monitor) (lines : List (List UInt8)) (f : Feed) (g : Engine) : Feed × Delivery → Prop
  | (f', .fault (.gap _ _)) => f'.config = base.feed.config ∧ Undelayed f' ∧ f'.queue = []
  | (f', d) => ∃ done rs es, f.lines = done ++ f'.lines ∧
      Abreast base (lines ++ done) rs es f' (g.heed d.event?)

namespace Abreast

variable {lines : List (List UInt8)} {rs : List Ruling} {l : List UInt8}

theorem drain (h : Abreast base lines rs es f g) :
    ∃ es', Abreast base lines rs es' (f.drain f.queue).1 (g.heed (f.drain f.queue).2) := by
  have hwhole : ∀ e ∈ f.queue, Whole e := by
    intro e he
    obtain ⟨r, _, hr⟩ := List.mem_flatMap.mp (h.worked ▸ List.mem_append_right es he)
    exact (mem_pieces hr).1
  obtain ⟨es', hes, hfollows⟩ := h.follows.drain hwhole
  exact ⟨es', h.ruled, h.gapless, (drain_still f f.queue).floor.trans h.floor, h.worked.trans hes, hfollows⟩

theorem same {f' : Feed} {g' : Engine} (h : Abreast base lines rs es f g) (hconfig : f'.config = f.config)
    (hheld : f'.held = f.held) (hprevious : f'.previous = f.previous) (hqueue : f'.queue = f.queue)
    (hfloor : f'.floor = f.floor) (hup : ∀ place, g'.network.upState? place = g.network.upState? place) :
    Abreast base lines rs es f' g' :=
  ⟨h.ruled, h.gapless, hfloor.trans h.floor, by rw [hqueue]; exact h.worked,
    h.follows.same hconfig hheld hprevious hup⟩

/-- Without a record on it a line does nothing. -/
theorem blank (h : Abreast base lines rs es f g) (hl : record? l = none) :
    Abreast base (lines ++ [l]) rs es f g := by
  refine ⟨?_, h.gapless, h.floor, h.worked, h.follows⟩
  have hrecords : records (lines ++ [l]) = records lines := by simp [records, hl]
  rw [hrecords]
  exact h.ruled

theorem ruled_snoc (h : Abreast base lines rs es f g) (hl : record? l = some e) :
    Ruled base.feed.horizon (records (lines ++ [l])) (rs ++ [f.ruling e]) := by
  have hrecords : records (lines ++ [l]) = records lines ++ [e] := by simp [records, hl]
  rw [hrecords]
  exact h.ruled.append (.cons (h.floor ▸ ruling_on f e) (.nil _))

theorem gapless_snoc (h : Abreast base lines rs es f g) {r : Ruling} (hr : r.isGap = false) :
    ∀ x ∈ rs ++ [r], x.isGap = false := by
  intro x hx
  rcases List.mem_append.mp hx with hx | hx
  · exact h.gapless x hx
  · rw [List.mem_singleton.mp hx]
    exact hr

theorem covered (h : Abreast base lines rs es f g) (hl : record? l = some e)
    (hruling : f.ruling e = .covered e) : Abreast base (lines ++ [l]) (rs ++ [.covered e]) es f g where
  ruled := hruling ▸ h.ruled_snoc hl
  gapless := h.gapless_snoc rfl
  floor := by
    rw [List.foldl_append]
    exact h.floor
  worked := by
    rw [List.filterMap_append, ← h.worked]
    simp [Ruling.event?]
  follows := h.follows

/-- A record that is let in is worked off. -/
theorem admitted (h : Abreast base lines rs es f g) (hl : record? l = some e)
    (hruling : f.ruling e = .admitted e) (hseq : f.sequence e ≠ .covered) (hq : f.queue = []) :
    ∃ es', Abreast base (lines ++ [l]) (rs ++ [.admitted e]) es' ((f.pass e).take e).1
      (g.heed ((f.pass e).take e).2) := by
  have hpass : Follows base es (f.pass e) g := h.follows.same rfl rfl rfl fun _ => rfl
  obtain ⟨es', hes, hfollows⟩ := hpass.take hq e
  refine ⟨es', hruling ▸ h.ruled_snoc hl, h.gapless_snoc rfl, ?_, ?_, hfollows⟩
  · rw [(take_still (f.pass e) e).floor, floor_pass_ruling hseq, hruling, List.foldl_append, ← h.floor]
    rfl
  · have hcapacity : (f.pass e).config.capacity = base.feed.config.capacity := by rw [hpass.config]
    rw [hcapacity] at hes
    have hworked : (rs.filterMap Ruling.event?).flatMap (pieces base.feed.config.capacity) = es := by
      rw [h.worked, hq, List.append_nil]
    rw [List.filterMap_append, List.flatMap_append, hworked, ← hes]
    simp [Ruling.event?]

end Abreast

/-- What was read before counts too. -/
theorem Answered.after {lines done : List (List UInt8)} {f' : Feed} {r : Feed × Delivery}
    (h : Answered base (lines ++ done) f' g r) (hlines : f.lines = done ++ f'.lines) :
    Answered base lines f g r := by
  have hgo {f'' : Feed} {g' : Engine}
      (h : ∃ done' rs es, f'.lines = done' ++ f''.lines ∧
        Abreast base (lines ++ done ++ done') rs es f'' g') :
      ∃ done' rs es, f.lines = done' ++ f''.lines ∧ Abreast base (lines ++ done') rs es f'' g' := by
    obtain ⟨done', rs, es, hdone, habreast⟩ := h
    refine ⟨done ++ done', rs, es, by rw [hlines, hdone, List.append_assoc], ?_⟩
    rwa [← List.append_assoc]
  obtain ⟨f'', d⟩ := r
  cases d with
  | event e => exact hgo h
  | idle => exact hgo h
  | fault x =>
    cases x with
    | gap => exact h
    | _ => exact hgo h

theorem Abreast.readLines {lines : List (List UInt8)} {rs : List Ruling} (ls : List (List UInt8))
    (h : Abreast base lines rs es f g) (hq : f.queue = []) :
    Answered base lines { f with lines := ls } g ((f.readLines ls).1, told (f.readLines ls).2) := by
  induction ls generalizing f lines rs es with
  | nil =>
    rw [← List.append_nil lines] at h
    exact ⟨[], rs, es, rfl, h.same rfl rfl rfl rfl rfl fun _ => rfl⟩
  | cons l r ih =>
    have hf : Abreast base lines rs es { f with lines := r } g := h.same rfl rfl rfl rfl rfl fun _ => rfl
    unfold Feed.readLines
    dsimp only
    cases hl : record? l with
    | none => exact (ih (hf.blank hl) hq).after rfl
    | some e =>
      dsimp only
      cases hseq : sequence { f with lines := r } e with
      | covered =>
        have hruling : ruling { f with lines := r } e = .covered e := by rw [ruling, hseq]
        exact (ih (hf.covered hl hruling) hq).after rfl
      | gap a b => exact ⟨h.follows.config, h.follows.undelayed, hq⟩
      | next =>
        have hruling : ruling { f with lines := r } e = .admitted e := by rw [ruling, hseq]
        obtain ⟨es', htake⟩ := hf.admitted hl hruling (by rw [hseq]; simp) hq
        have hlines := take_lines (pass { f with lines := r } e) e
        cases hr : (pass { f with lines := r } e).take e with
        | mk f' o =>
          rw [hr] at htake hlines
          have hleft : f'.lines = r := hlines
          cases o with
          | some x => exact ⟨[l], _, es', by rw [hleft]; rfl, htake⟩
          | none =>
            have hempty := take_none_queue (f := pass { f with lines := r } e) hq hr
            exact (ih htake hempty).after rfl

theorem Abreast.poll {lines : List (List UInt8)} {rs : List Ruling} (h : Abreast base lines rs es f g) :
    Answered base lines f g f.poll := by
  obtain ⟨es', hdrain⟩ := h.drain
  have hlines := drain_lines f f.queue
  unfold Feed.poll
  split
  next f' e heq =>
    rw [heq] at hdrain hlines
    exact ⟨[], rs, es', hlines.symm, by rw [List.append_nil]; exact hdrain⟩
  next f' heq =>
    rw [heq] at hdrain hlines
    rw [← List.append_nil lines] at hdrain
    have hread := (hdrain.readLines f'.lines (drain_none_queue heq)).after hlines.symm
    cases hr : f'.readLines f'.lines with
    | mk f'' o =>
      rw [hr] at hread
      match o with
      | some (.ok e) => exact hread
      | some (.error x) => exact hread
      | none =>
        dsimp only
        unfold atWire
        split <;> exact hread

/-- With nothing held there is nothing to wait for. -/
theorem Abreast.await_eq {lines : List (List UInt8)} {rs : List Ruling} (h : Abreast base lines rs es f g)
    (ms : Nat) : f.await ms = match f.poll with
      | (f', .idle) => ({ f' with now := f'.now + ms }, .idle)
      | r => r := by
  have hpoll := h.poll
  unfold await
  cases hp : f.poll with
  | mk f' d =>
    rw [hp] at hpoll
    cases d with
    | idle =>
      obtain ⟨_, _, _, _, habreast⟩ := hpoll
      have hheld : f'.held = [] := habreast.follows.undelayed.2
      simp only [hheld, List.map_nil, List.filter_nil, pollAt, advance_of_held_nil hheld]
    | event e => rfl
    | fault x => rfl

theorem Abreast.await {lines : List (List UInt8)} {rs : List Ruling} (h : Abreast base lines rs es f g)
    (ms : Nat) : Answered base lines f g (f.await ms) := by
  have hpoll := h.poll
  rw [h.await_eq ms]
  cases hp : f.poll with
  | mk f' d =>
    rw [hp] at hpoll
    cases d with
    | idle =>
      obtain ⟨done, rs', es', hdone, habreast⟩ := hpoll
      exact ⟨done, rs', es', hdone, habreast.same rfl rfl rfl rfl rfl fun _ => rfl⟩
    | event e => exact hpoll
    | fault x => exact hpoll

end Feed
end Fabric
