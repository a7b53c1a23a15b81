import Fabric.Proofs.Lines

/-! Numbers go up one by one. A record is ruled on by its number and the last one known, its floor
(`Ruling.On`), and however lines come in and are asked for, a feed rules on all of them in order and works
off those that it lets in (`run_rulings`). So between two gaps the numbers that are let in follow each
other, and the first of them follows the floor. Rulings are stated with natural numbers: a sum in them
does not wrap. -/

namespace Fabric

open Fabric.Text

namespace Ruling

def isGap : Ruling → Bool
  | gap _ _ => true
  | _ => false

/-- The number that the next record is held against. -/
def floorAfter (floor : Option UInt64) : Ruling → Option UInt64
  | admitted e => e.id.or floor
  | covered _ => floor
  | gap _ got => some got

/-- The number that is let in. -/
def number? : Ruling → Option Nat
  | admitted e => e.id.map UInt64.toNat
  | _ => none

theorem number?_admitted {e : Event} {i : UInt64} (h : e.id = some i) :
    number? (admitted e) = some i.toNat := by
  rw [number?, h, Option.map_some]

/-- The ruling on a record, from the last number known. -/
inductive On : Option UInt64 → Event → Ruling → Prop where
  | unnumbered {floor : Option UInt64} {e : Event} : e.id = none → On floor e (.admitted e)
  | first {e : Event} {i : UInt64} : e.id = some i → On none e (.admitted e)
  | covered {last i : UInt64} {e : Event} : e.id = some i → i ≤ last → On (some last) e (.covered e)
  | next {last i : UInt64} {e : Event} : e.id = some i → i.toNat = last.toNat + 1 →
      On (some last) e (.admitted e)
  | gap {last i expected : UInt64} {e : Event} : e.id = some i → expected.toNat = last.toNat + 1 →
      expected < i → On (some last) e (.gap expected i)

end Ruling

/-- The rulings on one record after another. -/
inductive Ruled : Option UInt64 → List Event → List Ruling → Prop where
  | nil (floor : Option UInt64) : Ruled floor [] []
  | cons {floor : Option UInt64} {e : Event} {r : Ruling} {es : List Event} {rs : List Ruling} :
      r.On floor e → Ruled (r.floorAfter floor) es rs → Ruled floor (e :: es) (r :: rs)

namespace Ruled

variable {floor : Option UInt64} {es es' : List Event} {rs rs' : List Ruling}

theorem append (h : Ruled floor es rs) (h' : Ruled (rs.foldl Ruling.floorAfter floor) es' rs') :
    Ruled floor (es ++ es') (rs ++ rs') := by
  induction h with
  | nil => exact h'
  | cons hr _ ih => exact .cons hr (ih h')

theorem split (h : Ruled floor es (rs ++ rs')) :
    ∃ a b, es = a ++ b ∧ Ruled floor a rs ∧ Ruled (rs.foldl Ruling.floorAfter floor) b rs' := by
  induction rs generalizing floor es with
  | nil => exact ⟨[], es, rfl, .nil floor, h⟩
  | cons r rs ih =>
    cases h with
    | @cons _ e _ es _ hr h =>
      obtain ⟨a, b, rfl, ha, hb⟩ := ih h
      exact ⟨e :: a, b, rfl, .cons hr ha, hb⟩

/-- As long as there is no gap the numbers that are let in follow each other. -/
theorem consecutive (h : Ruled floor es rs) (hgap : ∀ r ∈ rs, r.isGap = false) :
    ∃ k n, rs.filterMap Ruling.number? = List.range' k n ∧
      ∀ last, floor = some last → k = last.toNat + 1 := by
  induction h with
  | nil floor => exact ⟨(floor.map (·.toNat + 1)).getD 0, 0, rfl, by rintro last rfl; rfl⟩
  | @cons floor e r es rs hr _ ih =>
    obtain ⟨k, n, hnumbers, hk⟩ := ih fun x hx => hgap x (by simp [hx])
    cases hr with
    | unnumbered hid =>
      refine ⟨k, n, ?_, fun last hlast => hk last (by simp [Ruling.floorAfter, hid, hlast])⟩
      rw [List.filterMap_cons_none (by rw [Ruling.number?, hid, Option.map_none]), hnumbers]
    | @first _ i hid =>
      refine ⟨i.toNat, n + 1, ?_, by simp⟩
      have hnext := hk i (by simp [Ruling.floorAfter, hid])
      rw [List.filterMap_cons_some (Ruling.number?_admitted hid), hnumbers, hnext, List.range'_succ]
    | @covered last i _ hid hle =>
      refine ⟨k, n, ?_, hk⟩
      rw [List.filterMap_cons_none rfl, hnumbers]
    | @next last i _ hid hsucc =>
      refine ⟨i.toNat, n + 1, ?_, by rintro _ ⟨⟩; exact hsucc⟩
      have hnext := hk i (by simp [Ruling.floorAfter, hid])
      rw [List.filterMap_cons_some (Ruling.number?_admitted hid), hnumbers, hnext, List.range'_succ]
    | gap => cases hgap _ List.mem_cons_self

/-- A record without a number is let in. -/
theorem mem_admitted (h : Ruled floor es rs) {e : Event} (he : e ∈ es) (hid : e.id = none) : .admitted e ∈ rs := by
  induction h with
  | nil => cases he
  | cons hr _ ih =>
    rcases List.mem_cons.mp he with rfl | he
    · cases hr with
      | unnumbered => exact List.mem_cons_self
      | first hsome | covered hsome | next hsome | gap hsome => simp [hid] at hsome
    · exact List.mem_cons_of_mem _ (ih he)

end Ruled

namespace Feed

variable {f g : Feed} {e : Event}

/-! ## One record -/

theorem ruling_on (f : Feed) (e : Event) : (f.ruling e).On f.floor e := by
  unfold ruling sequence
  rw [← floor]
  cases hid : e.id with
  | none => exact .unnumbered hid
  | some i =>
    cases f.floor with
    | none => exact .first hid
    | some last =>
      dsimp only
      by_cases hle : i ≤ last
      · rw [if_pos hle]
        exact .covered hid hle
      · rw [if_neg hle]
        -- a number above the floor leaves room for its successor
        have hlt : last.toNat < i.toNat := UInt64.lt_iff_toNat_lt.mp (UInt64.not_le.mp hle)
        have hbound := i.toNat_lt
        have hsucc : (last + 1).toNat = last.toNat + 1 := by
          rw [UInt64.toNat_add, UInt64.toNat_one, Nat.mod_eq_of_lt (by omega)]
        by_cases hnext : i = last + 1
        · rw [if_pos hnext]
          exact .next hid (hnext ▸ hsucc)
        · rw [if_neg hnext]
          refine .gap hid hsucc (UInt64.lt_iff_toNat_lt.mpr ?_)
          have hne : i.toNat ≠ (last + 1).toNat := fun h => hnext (UInt64.toNat_inj.mp h)
          omega

theorem floor_pass_ruling (h : f.sequence e ≠ .covered) :
    (f.pass e).floor = (f.ruling e).floorAfter f.floor := by
  have hon := ruling_on f e
  rw [floor_pass]
  unfold ruling at hon ⊢
  generalize f.floor = last at *
  cases hseq : f.sequence e with
  | next => rfl
  | covered => exact absurd hseq h
  | gap a b =>
    rw [hseq] at hon
    cases hon with
    | gap hid => rw [hid]; rfl

/-! ## What leaves the numbers alone -/

/-- No line is read off and the floor is as it was. -/
structure Still (f g : Feed) : Prop where
  lines : g.lines = f.lines
  rest : g.rest = f.rest
  floor : g.floor = f.floor

theorem Still.trans {g' : Feed} (h : Still f g) (h' : Still g g') : Still f g' :=
  ⟨h'.lines.trans h.lines, h'.rest.trans h.rest, h'.floor.trans h.floor⟩

theorem settle_still (f : Feed) (e : Event) : Still f (f.settle e).1 := by
  unfold settle
  split
  · split
    · exact ⟨rfl, rfl, rfl⟩
    · unfold debounce
      dsimp only
      split <;> exact ⟨rfl, rfl, rfl⟩
  · exact ⟨rfl, rfl, rfl⟩

theorem drain_still (f : Feed) (q : List Event) : Still f (f.drain q).1 := by
  induction q generalizing f with
  | nil => exact ⟨rfl, rfl, rfl⟩
  | cons e r ih =>
    have hqueue : Still f { f with queue := r } := ⟨rfl, rfl, rfl⟩
    have hsettle := hqueue.trans (settle_still { f with queue := r } e)
    unfold drain
    split
    next heq => rwa [heq] at hsettle
    next heq =>
      rw [heq] at hsettle
      exact hsettle.trans (ih _)

theorem take_still (f : Feed) (e : Event) : Still f (f.take e).1 := by
  unfold take
  split
  next es _ =>
    have hpush : Still f (f.push es) := ⟨rfl, rfl, rfl⟩
    exact hpush.trans (drain_still (f.push es) (f.push es).queue)
  next => exact settle_still f e

/-! ## What shows of the rulings -/

end Feed

/-- How a record is ruled on. -/
def Mark.ruling? : Mark → Option Ruling
  | line _ r => r
  | _ => none

def Delivery.gap? : Delivery → Option Ruling
  | .fault (.gap expected got) => some (.gap expected got)
  | _ => none

namespace Timeline

def rulings (l : Timeline) : List Ruling := l.filterMap (·.mark.ruling?)

theorem rulings_append (l m : Timeline) : rulings (l ++ m) = l.rulings ++ m.rulings := List.filterMap_append

theorem rulings_at (ms : List Mark) (g : Feed) : rulings (ms.map (⟨·, g⟩)) = ms.filterMap Mark.ruling? := by
  rw [rulings, List.filterMap_map]
  rfl

/-- Where a record was let in, a line was read off. -/
theorem exists_admission {l : Timeline} {e : Event} (h : .admitted e ∈ l.rulings) :
    ∃ x ∈ l, ∃ line, x.mark = .line line (some (.admitted e)) := by
  obtain ⟨x, hx, hruling⟩ := List.mem_filterMap.mp h
  refine ⟨x, hx, ?_⟩
  cases hmark : x.mark with
  | line line r =>
    rw [hmark] at hruling
    exact ⟨line, congrArg (Mark.line line) hruling⟩
  | _ => simp [hmark, Mark.ruling?] at hruling

end Timeline

namespace Feed

variable {f g : Feed} {e : Event} {c : Clock} {l m : Timeline} {ms : List Mark} {turns : List Turn}

/-- A record that is let in is the one that is worked off then, with nothing in the queue before it. One
about many is queued in parts, and these are drained. -/
inductive Taken (e : Event) (x : Moment) (post : Timeline) : Prop where
  | many {g : Feed} {es : List Event} : parts? e = some es → g.queue = [] → x.after = g.push es →
      g.take e = x.after.drain x.after.queue → Taken e x post
  | one {g : Feed} {out : Option Event} {rest : Timeline} : parts? e = none → g.queue = [] →
      g.take e = (x.after, out) → post = ⟨.settled e out, x.after⟩ :: rest → Taken e x post

theorem Taken.append {x : Moment} {post : Timeline} (h : Taken e x post) (later : Timeline) :
    Taken e x (post ++ later) := by
  cases h with
  | many hparts hqueue hpush htake => exact .many hparts hqueue hpush htake
  | one hparts hqueue htake hpost => exact .one hparts hqueue htake (by rw [hpost]; rfl)

/-- How the records in a timeline are ruled on, from a floor on: those that are let in are worked off, and
whoever asks is told of the gaps. -/
structure Rules (floor : Option UInt64) (l : Timeline) (after : Option UInt64) : Prop where
  ruled : Ruled floor (records l.lines) l.rulings
  floor : after = l.rulings.foldl Ruling.floorAfter floor
  gaps : l.told.filterMap Delivery.gap? = l.rulings.filter Ruling.isGap
  taken : ∀ pre x post line e, l = pre ++ x :: post → x.mark = .line line (some (.admitted e)) → Taken e x post

namespace Rules

variable {floor after later : Option UInt64}

theorem append (h : Rules floor l after) (h' : Rules after m later) : Rules floor (l ++ m) later where
  ruled := by
    rw [Timeline.lines_append, Timeline.rulings_append, records, List.filterMap_append]
    exact h.ruled.append (h.floor ▸ h'.ruled)
  floor := by rw [Timeline.rulings_append, List.foldl_append, ← h.floor, h'.floor]
  gaps := by
    rw [Timeline.told_append, Timeline.rulings_append, List.filterMap_append, List.filter_append, h.gaps, h'.gaps]
  taken pre x post line e heq hx := by
    rcases List.append_eq_append_iff.mp heq with ⟨a, rfl, hm⟩ | ⟨a, hl, ha⟩
    · exact h'.taken a x post line e hm hx
    · cases a with
      | nil => exact h'.taken [] x post line e (by simpa using ha.symm) hx
      | cons y a =>
        obtain ⟨rfl, rfl⟩ := List.cons.inj ha
        exact (h.taken pre x a line e hl hx).append m

/-- Nothing is read off. -/
theorem still (floor : Option UInt64) (ms : List Mark) (hlines : ms.filterMap Mark.line? = [])
    (hrulings : ms.filterMap Mark.ruling? = []) (htold : (ms.flatMap Mark.told).filterMap Delivery.gap? = []) :
    Rules floor (ms.map (⟨·, g⟩)) floor where
  ruled := by
    rw [Timeline.lines_at, Timeline.rulings_at, hlines, hrulings]
    exact .nil floor
  floor := by
    rw [Timeline.rulings_at, hrulings]
    rfl
  gaps := by
    rw [Timeline.rulings_at, hrulings, Timeline.told, List.flatMap_map, htold]
    rfl
  taken pre x post line e heq hx := by
    have hmem : x ∈ ms.map (⟨·, g⟩) := heq ▸ List.mem_append_right pre List.mem_cons_self
    obtain ⟨a, ha, rfl⟩ := List.mem_map.mp hmem
    have hline : line ∈ ms.filterMap Mark.line? :=
      List.mem_filterMap.mpr ⟨a, ha, by rw [show a = _ from hx]; rfl⟩
    rw [hlines] at hline
    cases hline

/-- A line is read off, and after it there is no other. -/
theorem line {line : List UInt8} {r : Option Ruling} (ms : List Mark)
    (hruled : Ruled floor (records [line]) r.toList)
    (hafter : after = r.toList.foldl Ruling.floorAfter floor) (hlines : ms.filterMap Mark.line? = [])
    (hrulings : ms.filterMap Mark.ruling? = []) (htold : (ms.flatMap Mark.told).filterMap Delivery.gap? = [])
    (htaken : ∀ e, r = some (.admitted e) → Taken e ⟨.line line r, g⟩ (ms.map (⟨·, g⟩))) :
    Rules floor ((.line line r :: ms).map (⟨·, g⟩)) after := by
  have hread : (Mark.line line r :: ms).filterMap Mark.line? = [line] := congrArg (line :: ·) hlines
  have hruling : (Mark.line line r :: ms).filterMap Mark.ruling? = r.toList := by
    cases r with
    | none => exact hrulings
    | some r => exact congrArg (r :: ·) hrulings
  refine
    { ruled := by rwa [Timeline.lines_at, Timeline.rulings_at, hread, hruling]
      floor := by rwa [Timeline.rulings_at, hruling]
      gaps := ?_
      taken := fun pre x post line' e heq hx => ?_ }
  · rw [Timeline.rulings_at, hruling, Timeline.told, List.flatMap_map, List.flatMap_cons, List.filterMap_append,
      htold, List.append_nil]
    rcases r with _ | _ | _ | _ <;> rfl
  · rw [List.map_cons] at heq
    cases pre with
    | nil =>
      obtain ⟨rfl, rfl⟩ := List.cons.inj heq
      cases hx
      exact htaken e rfl
    | cons y pre =>
      obtain ⟨-, hrest⟩ := List.cons.inj heq
      exact (still floor ms hlines hrulings htold).taken pre x post line' e hrest hx

end Rules

theorem gap?_atWire (f : Feed) : f.atWire.gap? = none := by
  unfold atWire
  split <;> rfl

/-- What is told of a reply shows the gap in it. -/
theorem gap?_told (d : Delivery) : d.told.filterMap Delivery.gap? = d.gap?.toList := by
  cases d with
  | fault x => cases x <;> rfl
  | event | idle => rfl

theorem ruling_lost (es : List Event) : (es.map Mark.lost).filterMap Mark.ruling? = [] := by
  simp [List.filterMap_map, Mark.ruling?]

theorem ruled_record {line : List UInt8} {r : Ruling} (hl : record? line = some e) (hruling : f.ruling e = r) :
    Ruled f.floor (records [line]) [r] := by
  rw [records_cons_some hl, ← hruling]
  exact .cons (ruling_on f e) (.nil _)

theorem floor_pass_of_ruling {r : Ruling} (hseq : f.sequence e ≠ .covered) (hruling : f.ruling e = r) :
    (f.pass e).floor = r.floorAfter f.floor := by
  rw [floor_pass_ruling hseq, hruling]

/-- One ruling at a time. -/
theorem Act.rules (h : Act f ms g) (hquiet : ∀ m ∈ ms, m.isEnd = false ∧ m.isHorizon = false) :
    Rules f.floor (ms.map (⟨·, g⟩)) g.floor := by
  cases h with
  | receive => exact .still _ _ rfl rfl rfl
  | hangUp =>
    obtain ⟨w, hw⟩ := hangUp_eq f
    rw [hw]
    exact .still _ _ rfl rfl rfl
  | @pop e r =>
    rw [(settle_still { f with queue := r } e).floor]
    refine .still _ _ rfl rfl ?_
    rw [List.flatMap_singleton, told_settled]
    cases ({ f with queue := r }.settle e).2 <;> rfl
  | blank _ _ hl =>
    refine Rules.line [] ?_ rfl rfl rfl rfl (by simp)
    rw [records_cons_none hl]
    exact .nil _
  | @covered line r e _ _ hl hseq =>
    have hruling : f.ruling e = .covered e := by rw [ruling, hseq]
    exact Rules.line [] (ruled_record hl hruling) rfl rfl rfl rfl (by simp)
  | @gap line r e a b _ _ hl hseq =>
    have hruling : f.ruling e = .gap a b := by rw [ruling, hseq]
    have hfloor := floor_pass_of_ruling (by simp [hseq]) hruling
    exact Rules.line [] (ruled_record hl hruling) hfloor rfl rfl rfl (by simp)
  | @bulk line r e es hq _ hl hseq hparts =>
    have hruling : f.ruling e = .admitted e := by rw [ruling, hseq]
    have hfloor := floor_pass_of_ruling (by simp [hseq]) hruling
    refine Rules.line (f.overflow es) (ruled_record hl hruling) hfloor (line_lost _) (ruling_lost _)
      (by rw [overflow, told_lost]; rfl) fun x hx => ?_
    cases hx
    refine .many (g := { f with lines := r }.pass e) hparts hq rfl ?_
    rw [take, hparts]
  | @single line r e hq _ hl hseq hparts =>
    have hruling : f.ruling e = .admitted e := by rw [ruling, hseq]
    have hfloor := floor_pass_of_ruling (by simp [hseq]) hruling
    have hsettle := (settle_still ({ f with lines := r }.pass e) e).floor
    refine Rules.line [.settled e _] (ruled_record hl hruling) (hsettle.trans hfloor) rfl rfl ?_ fun x hx => ?_
    · rw [List.flatMap_singleton, told_settled]
      cases (({ f with lines := r }.pass e).settle e).2 <;> rfl
    · cases hx
      refine .one (g := { f with lines := r }.pass e) hparts hq ?_ rfl
      rw [take, hparts]
  | exhausted =>
    refine .still _ _ rfl rfl ?_
    rw [List.flatMap_singleton, told_atWire, gap?_told, gap?_atWire]
    rfl
  | horizon | disconnect | attach => simp [Mark.isHorizon, Mark.isEnd] at hquiet

theorem Step.rules (h : Step c f ms g) (hquiet : ∀ m ∈ ms, m.isEnd = false ∧ m.isHorizon = false) :
    Rules f.floor (ms.map (⟨·, g⟩)) g.floor := by
  cases h with
  | act _ h => exact h.rules hquiet
  | tick => exact .still _ _ rfl rfl rfl
  | @release _ _ x =>
    refine .still _ _ ?_ ?_ (by rw [(releaseMarks_silent f x).2]; rfl)
    all_goals
      refine List.filterMap_eq_nil_iff.mpr fun a ha => ?_
      rcases mem_releaseMarks ha with ⟨_, rfl⟩ | ⟨_, rfl⟩ <;> rfl

/-- So are all records that are read off in the course of a run. -/
theorem Steps.rules (hs : Steps c f l g) (hquiet : ∀ m ∈ l, m.mark.isEnd = false ∧ m.mark.isHorizon = false) :
    Rules f.floor l g.floor := by
  induction hs with
  | refl => exact (Rules.still f.floor [] rfl rfl rfl : Rules f.floor (([] : List Mark).map (⟨·, f⟩)) f.floor)
  | @snoc _ g' l ms _ hstep ih =>
    obtain ⟨hl, hms⟩ := List.forall_mem_append.mp hquiet
    exact (ih hl).append (hstep.rules fun a ha => hms ⟨a, g'⟩ (List.mem_map_of_mem ha))

theorem Course.gaps (h : Course c f turns l) :
    l.told.filterMap Delivery.gap? = (f.replies turns).filterMap Delivery.gap? := by
  rw [h.told]
  induction f.replies turns with
  | nil => rfl
  | cons d r ih =>
    rw [List.flatMap_cons, List.filterMap_append, gap?_told, ih, List.filterMap_cons]
    cases d.gap? <;> rfl

/-! ## What waits for the next call -/

/-- Only a gap is a fault of what is read. -/
theorem readLines_fault {x : Fault} {ls : List (List UInt8)} (h : f.readLines ls = (g, some (.error x))) :
    ∃ expected got, x = .gap expected got := by
  induction ls generalizing f with
  | nil => cases h
  | cons line r ih =>
    unfold readLines at h
    dsimp only at h
    split at h
    · exact ih h
    · split at h
      · exact ih h
      · cases h
        exact ⟨_, _, rfl⟩
      · split at h
        · cases h
        · exact ih h

/-- Only an event or a gap keeps lines for the next call. -/
theorem poll_end (hevent : f.poll.2.event? = none) (hgap : f.poll.2.gap? = none) : f.poll.1.lines = [] := by
  unfold poll at hevent hgap ⊢
  cases hd : f.drain f.queue with
  | mk g o =>
    rw [hd] at hevent hgap
    cases o with
    | some e => cases hevent
    | none =>
      dsimp only at hevent hgap ⊢
      cases hr : g.readLines g.lines with
      | mk g' o =>
        rw [hr] at hevent hgap
        match o with
        | some (.ok e) => cases hevent
        | some (.error x) =>
          obtain ⟨_, _, rfl⟩ := readLines_fault hr
          cases hgap
        | none => exact (readLines_none (drain_none_queue hd) hr).2

/-- A line whose record is covered might as well not have come. -/
theorem readLines_covered {l : List UInt8} {i last : UInt64} (hl : record? l = some e)
    (hid : e.id = some i) (hfloor : f.floor = some last) (hle : i ≤ last) (r : List (List UInt8)) :
    f.readLines (l :: r) = f.readLines r := by
  have hseq : sequence { f with lines := r } e = .covered := by
    unfold sequence
    rw [hid, show f.lastId.or f.horizon = some last from hfloor]
    exact if_pos hle
  have hread : f.readLines (l :: r) = readLines { f with lines := r } r := by
    simp only [readLines, hl, hseq]
  rw [hread]
  cases r <;> rfl

/-- Take any feed, and whatever comes in, is asked for and is waited for until the session ends or
the horizon is set. The lines that are whole are read off in order, and on the record of each there
is one ruling: records without a number are let in, so is the first number when none is known, and
so is the successor of the last; up to the last they are covered, which is as if the line had not
come; beyond its successor there is a gap, that is told with the number expected and the number got,
and the lines after it go on from there. A record that is let in is worked off then, and only what is handed
over of it or a gap keeps a line waiting. So the numbers that are let in between two gaps follow each other,
and the first of them follows the floor, which is the horizon when it has just been set. -/
theorem run_rulings (f : Feed) (turns : List Turn) (session : ∀ a ∈ turns, a.isWithin f.config = true) :
    (∃ l, Course .any f turns l) ∧
    (∀ l, Course .any f turns l →
      f.linesWith (turns.flatMap Turn.bytes) = l.lines ++ (f.run turns).linesWith [] ∧
      Ruled f.floor (records l.lines) l.rulings ∧
      (f.run turns).floor = l.rulings.foldl Ruling.floorAfter f.floor ∧
      (f.replies turns).filterMap Delivery.gap? = l.rulings.filter Ruling.isGap ∧
      (∀ pre x post line e, l = pre ++ x :: post → x.mark = .line line (some (.admitted e)) → Taken e x post) ∧
      l.delivered = f.deliveries turns ∧
      ∀ before stretch after, l.rulings = before ++ stretch ++ after → (∀ r ∈ stretch, r.isGap = false) →
        ∃ k n, stretch.filterMap Ruling.number? = List.range' k n ∧
          ∀ last, before.foldl Ruling.floorAfter f.floor = some last → k = last.toNat + 1) ∧
    (f.poll.2.event? = none → f.poll.2.gap? = none → f.poll.1.lines = []) ∧
    (∀ h, (f.setHorizon h).floor = some h) ∧
    ∀ l e i last r, record? l = some e → e.id = some i → f.floor = some last → i ≤ last →
      f.readLines (l :: r) = f.readLines r := by
  refine ⟨(exists_course (c := .any) nofun turns).1, fun l hl => ?_, poll_end, fun _ => rfl, fun l e i last r => ?_⟩
  · have hquiet := hl.within session
    have hlines := hl.steps.linesWith (fun m hm => (hquiet m hm).1) []
    have hrules := hl.steps.rules hquiet
    rw [List.append_nil, hl.bytes] at hlines
    refine ⟨hlines, hrules.ruled, hrules.floor, hl.gaps.symm.trans hrules.gaps, hrules.taken, hl.delivered, ?_⟩
    intro before stretch after hrulings hgap
    have hruled := hrules.ruled
    rw [hrulings] at hruled
    obtain ⟨_, _, _, hfirst, _⟩ := hruled.split
    obtain ⟨_, _, _, _, hstretch⟩ := hfirst.split
    exact hstretch.consecutive hgap
  · exact fun hl hid hfloor hle => readLines_covered hl hid hfloor hle r

section Small

/-- A covered record, the next one, one without a number, a gap, and the one after it. -/
def numberedTurns : List Turn :=
  [ .receive (framed [smallRecord "\"event_id\":7", smallRecord "\"event_id\":8", smallRecord "\"time\":1"]),
    .poll,
    .receive (framed [smallRecord "\"event_id\":12", smallRecord "\"event_id\":13"]),
    .await 5,
    .poll,
    .poll ]

theorem run_rulings_small :
    (∀ a ∈ numberedTurns, a.isWithin (smallFeed.attach.setHorizon 7).config = true) ∧
    ∃ l, Course .any (smallFeed.attach.setHorizon 7) numberedTurns l ∧
      (smallFeed.attach.setHorizon 7).linesWith (numberedTurns.flatMap Turn.bytes) =
        l.lines ++ ((smallFeed.attach.setHorizon 7).run numberedTurns).linesWith [] ∧
      Ruled (some 7) (records l.lines) l.rulings := by
  have session : ∀ a ∈ numberedTurns, a.isWithin (smallFeed.attach.setHorizon 7).config = true := by
    decide +kernel
  obtain ⟨⟨l, hl⟩, hall, -⟩ := run_rulings (smallFeed.attach.setHorizon 7) numberedTurns session
  obtain ⟨hlines, hruled, -⟩ := hall l hl
  exact ⟨session, l, hl, hlines, hruled⟩

/-- One gap is told, and three events are handed over. -/
example : (((smallFeed.attach.setHorizon 7).replies numberedTurns).filterMap Delivery.gap?).length = 1 ∧
    ((smallFeed.attach.setHorizon 7).deliveries numberedTurns).map (·.id) = [some 8, none, some 13] := by
  decide +kernel

end Small
end Feed
end Fabric
