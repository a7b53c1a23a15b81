import Mathlib.Data.List.Chain
import Fabric.Network.Route
import Fabric.Proofs.Filing

/-! Routes between hosts. A switch sends what is for a host to the port on which it sees the host, and
the configuration says what is at the far end of that port, so from an entry there is at most one next
entry (`nextPlace?`). The route is this walk for as long as it may be (`Approached`). Its goal is an access
port, which has no far end: a walk that comes to the switch of the goal can only leave by the goal,
and that is why no host is ever found misplaced. -/

namespace Fabric.Network

variable {n : Network} {w : Wiring} {dst : Mac}

/-! ## Access points -/

/-- The access point of a host: of the access ports on which switches see it, the one on the first
switch by name. -/
structure Homed (n : Network) (w : Wiring) (mac : Mac) (e : Endpoint) : Prop where
  seen : n.seenOn mac e.switch = some e.port
  access : isAccess w e = true
  first : ∀ e', n.seenOn mac e'.switch = some e'.port → isAccess w e' = true →
    compare e.switch e'.switch ≠ .gt

theorem mem_sightings {h : Host} {mac : Mac} (hh : n.hosts.get? mac = some h) (e : Endpoint) :
    e ∈ h.sightings.toList.map (fun (s, x) => (⟨s, x.port⟩ : Endpoint)) ↔
      n.seenOn mac e.switch = some e.port := by
  rw [List.mem_map, seenOn, sighting?, hh, Option.bind_some, Option.map_eq_some_iff]
  constructor
  · rintro ⟨⟨s, x⟩, hx, rfl⟩
    exact ⟨x, Table.mem_toList.mp hx, rfl⟩
  · rintro ⟨x, hx, hport⟩
    exact ⟨(e.switch, x), Table.mem_toList.mpr hx, Endpoint.eq_iff.mpr ⟨rfl, hport⟩⟩

theorem Homed.of_accessPoint? {mac : Mac} {e : Endpoint} (h : n.accessPoint? w mac = some e) :
    n.Homed w mac e := by
  obtain ⟨x, hx, hfind⟩ := Option.bind_eq_some_iff.mp h
  have hmem := List.mem_of_find?_eq_some hfind
  obtain ⟨haccess, before, after, hlist, hbefore⟩ := List.find?_eq_some_iff_append.mp hfind
  refine ⟨(mem_sightings hx e).mp hmem, haccess, fun e' hseen' haccess' => ?_⟩
  -- the access ports that come before in the list are none
  have hordered : (x.sightings.toList.map fun (s, x) => (⟨s, x.port⟩ : Endpoint)).Pairwise
      fun a b => compare a.switch b.switch = .lt := List.pairwise_map.mpr x.sightings.ascending
  have hmem' := (mem_sightings hx e').mpr hseen'
  rw [hlist] at hmem' hordered
  rcases List.mem_append.mp hmem' with hb | ha
  · simpa [haccess'] using hbefore e' hb
  · rcases List.mem_cons.mp ha with rfl | ha
    · simp
    · rw [(List.pairwise_cons.mp (List.pairwise_append.mp hordered).2.1).1 e' ha]
      decide

theorem Homed.unique {mac : Mac} {e e' : Endpoint} (h : n.Homed w mac e) (h' : n.Homed w mac e') : e = e' := by
  have hle := h.first e' h'.seen h'.access
  have hge := h'.first e h.seen h.access
  have hswitch : e.switch = e'.switch := by
    cases hc : compare e.switch e'.switch with
    | eq => exact Std.LawfulEqOrd.eq_of_compare hc
    | gt => exact absurd hc hle
    | lt => exact absurd (Std.OrientedCmp.gt_iff_lt.mpr hc) hge
  have hport := h.seen
  rw [hswitch, h'.seen] at hport
  exact Endpoint.eq_iff.mpr ⟨hswitch, (Option.some.inj hport).symm⟩

theorem accessPoint?_isSome {mac : Mac} {e : Endpoint} (hseen : n.seenOn mac e.switch = some e.port)
    (haccess : isAccess w e = true) : ∃ e', n.accessPoint? w mac = some e' := by
  cases hx : n.hosts.get? mac with
  | none => simp [seenOn, sighting?, hx] at hseen
  | some x =>
    rw [accessPoint?, hx, Option.bind_some, ← Option.isSome_iff_exists, List.find?_isSome]
    exact ⟨e, (mem_sightings hx e).mpr hseen, haccess⟩

theorem accessPoint?_eq_some {mac : Mac} {e : Endpoint} : n.accessPoint? w mac = some e ↔ n.Homed w mac e := by
  refine ⟨Homed.of_accessPoint?, fun h => ?_⟩
  obtain ⟨e', he'⟩ := accessPoint?_isSome h.seen h.access
  rw [he', h.unique (.of_accessPoint? he')]

/-! ## The walk -/

/-- Where what enters a switch, and is for `dst`, enters the next one. -/
def nextPlace? (n : Network) (w : Wiring) (dst : Mac) (e : Endpoint) : Option Endpoint :=
  (n.seenOn dst e.switch).bind fun out => stackPeer? w ⟨e.switch, out⟩

/-- The entry so many switches further. -/
def place? (n : Network) (w : Wiring) (dst : Mac) (start : Endpoint) : Nat → Option Endpoint
  | 0 => some start
  | k + 1 => (n.place? w dst start k).bind (n.nextPlace? w dst)

/-- The hop through a switch that sees `dst`. -/
def hopTo? (n : Network) (dst : Mac) (e : Endpoint) : Option Hop :=
  (n.seenOn dst e.switch).map fun out => ⟨e.switch, some e.port, some out⟩

theorem place?_succ (n : Network) (w : Wiring) (dst : Mac) (start : Endpoint) (k : Nat) :
    n.place? w dst start (k + 1) = (n.nextPlace? w dst start).bind (n.place? w dst · k) := by
  induction k with
  | zero => simp [place?]
  | succ k ih => rw [place?, ih, Option.bind_assoc]; rfl

/-- One of the first `left` switches of the walk is entered in such a way. -/
def Passes (n : Network) (w : Wiring) (dst : Mac) (left : Nat) (start : Endpoint) (P : Endpoint → Prop) : Prop :=
  ∃ k < left, ∃ e, n.place? w dst start k = some e ∧ P e

section Passes
variable {left : Nat} {start e : Endpoint} {P : Endpoint → Prop}

theorem passes_stop (h : n.nextPlace? w dst start = none) :
    n.Passes w dst (left + 1) start P ↔ P start := by
  constructor
  · rintro ⟨k, -, e, he, hP⟩
    cases k with
    | zero => cases he; exact hP
    | succ k => rw [place?_succ, h] at he; cases he
  · exact fun hP => ⟨0, Nat.succ_pos left, start, rfl, hP⟩

theorem passes_next (h : n.nextPlace? w dst start = some e) (hP : ¬ P start) :
    n.Passes w dst (left + 1) start P ↔ n.Passes w dst left e P := by
  have hlater (k : Nat) : n.place? w dst start (k + 1) = n.place? w dst e k := by
    rw [place?_succ, h, Option.bind_some]
  constructor
  · rintro ⟨k, hk, e', he', hP'⟩
    cases k with
    | zero => cases he'; exact absurd hP' hP
    | succ k => exact ⟨k, Nat.lt_of_succ_lt_succ hk, e', (hlater k).symm.trans he', hP'⟩
  · rintro ⟨k, hk, e', he', hP'⟩
    exact ⟨k + 1, Nat.succ_lt_succ hk, e', (hlater k).trans he', hP'⟩

end Passes

/-! ## The route -/

/-- The route is the walk from `start`, as far as the switches may be counted, and its verdict says which
switch it ended at and why. -/
structure Approached (n : Network) (w : Wiring) (dst : Mac) (goal : Endpoint) (left : Nat) (start : Endpoint)
    (r : Route) : Prop where
  hops : ∀ k < left, r.hops[k]? = (n.place? w dst start k).bind (n.hopTo? dst)
  length : r.hops.length ≤ left
  arrived : r.fault = none ↔ n.Passes w dst left start (·.switch = goal.switch)
  notLearned : ∀ s, r.fault = some (.notLearned dst s) ↔
    n.Passes w dst left start fun e => e.switch = s ∧ n.seenOn dst s = none
  notStacked : ∀ place, r.fault = some (.notStacked place) ↔
    n.Passes w dst left start fun e => e.switch = place.switch ∧ place.switch ≠ goal.switch ∧
      n.seenOn dst place.switch = some place.port ∧ stackPeer? w place = none
  tooLong : r.fault = some (.tooLong dst) ↔ (n.place? w dst start left).isSome = true
  only : r.fault = none ∨ r.fault = some (.tooLong dst) ∨ (∃ s, r.fault = some (.notLearned dst s)) ∨
    ∃ place, r.fault = some (.notStacked place)

namespace Approached

variable {goal start : Endpoint} {left : Nat} {r : Route}

/-- The walk ends at its first switch. -/
theorem stop (hnext : n.nextPlace? w dst start = none) (hops : r.hops = (n.hopTo? dst start).toList)
    (arrived : r.fault = none ↔ start.switch = goal.switch)
    (notLearned : ∀ s, r.fault = some (.notLearned dst s) ↔ start.switch = s ∧ n.seenOn dst s = none)
    (notStacked : ∀ place, r.fault = some (.notStacked place) ↔ start.switch = place.switch ∧
      place.switch ≠ goal.switch ∧ n.seenOn dst place.switch = some place.port ∧ stackPeer? w place = none)
    (only : r.fault = none ∨ (∃ s, r.fault = some (.notLearned dst s)) ∨
      ∃ place, r.fault = some (.notStacked place)) : Approached n w dst goal (left + 1) start r where
  hops k _ := by
    rw [hops]
    cases k with
    | zero => cases hhop : n.hopTo? dst start <;> simp [place?, hhop]
    | succ k =>
      rw [place?_succ, hnext]
      cases n.hopTo? dst start <;> simp
  length := by
    rw [hops]
    cases n.hopTo? dst start <;> simp
  arrived := by
    rw [passes_stop hnext]
    exact arrived
  notLearned s := by
    rw [passes_stop hnext]
    exact notLearned s
  notStacked place := by
    rw [passes_stop hnext]
    exact notStacked place
  tooLong := by
    rw [place?_succ, hnext]
    rcases only with h | ⟨s, h⟩ | ⟨place, h⟩ <;> simp [h]
  only := only.imp_right .inr

/-- The first switch does not see the host. -/
theorem unlearned (hnone : n.seenOn dst start.switch = none) (hgoal : start.switch ≠ goal.switch) :
    Approached n w dst goal (left + 1) start ⟨[], some (.notLearned dst start.switch)⟩ := by
  refine .stop ?_ ?_ ?_ (fun s => ?_) (fun place => ?_) (.inr (.inl ⟨start.switch, rfl⟩))
  · simp [nextPlace?, hnone]
  · simp [hopTo?, hnone]
  · simp [hgoal]
  · simp only [Option.some.injEq, RouteFault.notLearned.injEq, true_and]
    exact ⟨fun h => ⟨h, h ▸ hnone⟩, And.left⟩
  · simp only [Option.some.injEq, reduceCtorEq, false_iff]
    rintro ⟨hswitch, -, hport, -⟩
    rw [← hswitch, hnone] at hport
    cases hport

theorem not_unlearned {out : UInt32} (hseen : n.seenOn dst start.switch = some out) (s : String) :
    ¬ (start.switch = s ∧ n.seenOn dst s = none) := by
  rintro ⟨rfl, hnone⟩
  rw [hseen] at hnone
  cases hnone

/-- The first switch is that of the goal, and sees the host there. -/
theorem home (hseen : n.seenOn dst start.switch = some goal.port) (hgoal : start.switch = goal.switch)
    (hend : stackPeer? w goal = none) :
    Approached n w dst goal (left + 1) start ⟨[⟨start.switch, some start.port, some goal.port⟩], none⟩ := by
  refine .stop ?_ ?_ ?_ (fun s => ?_) (fun place => ?_) (.inl rfl)
  · rw [nextPlace?, hseen, Option.bind_some, hgoal]
    exact hend
  · rw [hopTo?, hseen]
    rfl
  · simp [hgoal]
  · simp [not_unlearned hseen s]
  · simp only [reduceCtorEq, false_iff]
    rintro ⟨hswitch, hother, -⟩
    exact hother (hswitch.symm.trans hgoal)

/-- The first switch sees the host on a port that leads nowhere. -/
theorem stranded {out : UInt32} (hseen : n.seenOn dst start.switch = some out) (hgoal : start.switch ≠ goal.switch)
    (hpeer : stackPeer? w ⟨start.switch, out⟩ = none) :
    Approached n w dst goal (left + 1) start
      ⟨[⟨start.switch, some start.port, some out⟩], some (.notStacked ⟨start.switch, out⟩)⟩ := by
  refine .stop ?_ ?_ ?_ (fun s => ?_) (fun place => ?_) (.inr (.inr ⟨_, rfl⟩))
  · rw [nextPlace?, hseen]
    exact hpeer
  · rw [hopTo?, hseen]
    rfl
  · simp [hgoal]
  · simp [not_unlearned hseen s]
  · simp only [Option.some.injEq, RouteFault.notStacked.injEq]
    constructor
    · rintro rfl
      exact ⟨rfl, hgoal, hseen, hpeer⟩
    · rintro ⟨hswitch, -, hplace, -⟩
      rw [← hswitch, hseen] at hplace
      exact Endpoint.eq_iff.mpr ⟨hswitch, Option.some.inj hplace⟩

/-- The walk goes on from its first switch. -/
theorem follow {e : Endpoint} {h : Hop} (hr : Approached n w dst goal left e r)
    (hnext : n.nextPlace? w dst start = some e) (hhop : n.hopTo? dst start = some h)
    (hgoal : start.switch ≠ goal.switch) : Approached n w dst goal (left + 1) start (r.follow h) := by
  obtain ⟨out, hseen, hpeer⟩ := Option.bind_eq_some_iff.mp hnext
  refine ⟨fun k hk => ?_, Nat.succ_le_succ hr.length, ?_, fun s => ?_, fun place => ?_, ?_, hr.only⟩
  · cases k with
    | zero => exact hhop.symm
    | succ k =>
      rw [place?_succ, hnext, Option.bind_some]
      exact hr.hops k (Nat.lt_of_succ_lt_succ hk)
  · rw [passes_next hnext hgoal]
    exact hr.arrived
  · have hlearned : ¬ (start.switch = s ∧ n.seenOn dst s = none) := by
      rintro ⟨rfl, hnone⟩
      rw [hseen] at hnone
      cases hnone
    rw [passes_next hnext hlearned]
    exact hr.notLearned s
  · have hstacked : ¬ (start.switch = place.switch ∧ place.switch ≠ goal.switch ∧
        n.seenOn dst place.switch = some place.port ∧ stackPeer? w place = none) := by
      rintro ⟨hswitch, -, hport, hnone⟩
      have hplace : place = ⟨start.switch, out⟩ := by
        rw [← hswitch, hseen] at hport
        exact Endpoint.eq_iff.mpr ⟨hswitch.symm, (Option.some.inj hport).symm⟩
      rw [← hplace, hnone] at hpeer
      cases hpeer
    rw [passes_next hnext hstacked]
    exact hr.notStacked place
  · rw [place?_succ, hnext, Option.bind_some]
    exact hr.tooLong

/-- Each two hops are at the ends of a configured stack link. -/
theorem joined (hr : Approached n w dst goal left start r) :
    r.hops.IsChain fun h h' => ∃ out into, h.outPort = some out ∧
      stackPeer? w ⟨h.switch, out⟩ = some into ∧ h'.switch = into.switch ∧ h'.inPort = some into.port := by
  refine List.isChain_iff_getElem.mpr fun k hk => ?_
  have hhop (j : Nat) (hj : j < r.hops.length) :
      ∃ e, n.place? w dst start j = some e ∧ n.hopTo? dst e = some r.hops[j] := by
    have heq := hr.hops j (Nat.lt_of_lt_of_le hj hr.length)
    rw [List.getElem?_eq_getElem hj] at heq
    exact Option.bind_eq_some_iff.mp heq.symm
  obtain ⟨e, he, hthis⟩ := hhop k (by omega)
  obtain ⟨e', he', hthat⟩ := hhop (k + 1) hk
  rw [place?, he, Option.bind_some] at he'
  obtain ⟨out, hseen, hpeer⟩ := Option.bind_eq_some_iff.mp he'
  obtain ⟨out', hseen', hthis⟩ := Option.map_eq_some_iff.mp hthis
  obtain ⟨out'', -, hthat⟩ := Option.map_eq_some_iff.mp hthat
  cases hseen.symm.trans hseen'
  rw [← hthis, ← hthat]
  exact ⟨out, e', rfl, hpeer, rfl, rfl⟩

/-- A route that arrives leaves by the goal. -/
theorem leaves (hr : Approached n w dst goal left start r) (hseen : n.seenOn dst goal.switch = some goal.port)
    (hend : stackPeer? w goal = none) (harrived : r.fault = none) :
    ∃ last, r.hops.getLast? = some last ∧ last.switch = goal.switch ∧ last.outPort = some goal.port := by
  obtain ⟨k, hk, e, he, hswitch⟩ := hr.arrived.mp harrived
  have hhop : n.hopTo? dst e = some ⟨goal.switch, some e.port, some goal.port⟩ := by
    rw [hopTo?, hswitch, hseen]
    rfl
  have hnext : n.nextPlace? w dst e = none := by
    rw [nextPlace?, hswitch, hseen]
    exact hend
  have hlast : r.hops[k]? = some ⟨goal.switch, some e.port, some goal.port⟩ := by
    rw [hr.hops k hk, he, Option.bind_some, hhop]
  have hover : r.hops[k + 1]? = none := by
    by_cases hk' : k + 1 < left
    · rw [hr.hops _ hk', place?, he, Option.bind_some, hnext, Option.bind_none]
    · have := hr.length
      exact List.getElem?_eq_none (by omega)
  have hlength : r.hops.length = k + 1 := by
    have := (List.getElem?_eq_some_iff.mp hlast).1
    have := List.getElem?_eq_none_iff.mp hover
    omega
  exact ⟨_, by rw [List.getLast?_eq_getElem?, hlength]; exact hlast, rfl, rfl⟩

/-- A route that is too long has all the hops that it may have. -/
theorem full (hr : Approached n w dst goal left start r) (hlong : r.fault = some (.tooLong dst)) :
    r.hops.length = left := by
  cases left with
  | zero => exact Nat.le_zero.mp hr.length
  | succ m =>
    obtain ⟨e', he'⟩ := Option.isSome_iff_exists.mp (hr.tooLong.mp hlong)
    rw [place?] at he'
    obtain ⟨e, he, hnext⟩ := Option.bind_eq_some_iff.mp he'
    obtain ⟨out, hseen, -⟩ := Option.bind_eq_some_iff.mp hnext
    have hhop : r.hops[m]? = some ⟨e.switch, some e.port, some out⟩ := by
      rw [hr.hops m (Nat.lt_succ_self m), he, Option.bind_some, hopTo?, hseen]
      rfl
    have := (List.getElem?_eq_some_iff.mp hhop).1
    have := hr.length
    omega

end Approached

/-- An access port leads to no other switch. -/
theorem stackPeer?_access {e : Endpoint} (h : isAccess w e = true) : stackPeer? w e = none := by
  have htype : w.portType? e.switch e.port = some .access := of_decide_eq_true h
  obtain ⟨i, hi, hi'⟩ := Option.map_eq_some_iff.mp htype
  rw [stackPeer?, hi, Option.bind_some, hi']
  rfl

/-- One switch after the other is the first of what is left of the walk. -/
theorem approach_approached (goal : Goal)
    (hsees : ∀ s, (goal.sightings.get? s).map (·.port) = n.seenOn goal.mac s)
    (hseen : n.seenOn goal.mac goal.place.switch = some goal.place.port)
    (hend : stackPeer? w goal.place = none) (left : Nat) (s : String) (i : UInt32) :
    Approached n w goal.mac goal.place left ⟨s, i⟩ (approach w goal left s i) := by
  induction left generalizing s i with
  | zero => constructor <;> simp [approach, Passes, place?]
  | succ left ih =>
    unfold approach
    cases hsight : goal.sightings.get? s with
    | none =>
      have hnone : n.seenOn goal.mac s = none := by rw [← hsees, hsight]; rfl
      have hgoal : s ≠ goal.place.switch := by
        rintro rfl
        rw [hseen] at hnone
        cases hnone
      exact .unlearned hnone hgoal
    | some x =>
      have hport : n.seenOn goal.mac s = some x.port := by rw [← hsees, hsight]; rfl
      dsimp only
      by_cases hgoal : s = goal.place.switch
      · -- the switch of the goal sees the host at the goal
        have hx : x.port = goal.place.port := by
          rw [hgoal, hseen] at hport
          exact (Option.some.inj hport).symm
        rw [if_pos hgoal, if_pos hx, hx]
        exact .home (hx ▸ hport) hgoal hend
      · rw [if_neg hgoal]
        cases hpeer : stackPeer? w ⟨s, x.port⟩ with
        | some e =>
          have hhop : n.hopTo? goal.mac ⟨s, i⟩ = some ⟨s, some i, some x.port⟩ := by rw [hopTo?, hport]; rfl
          exact (ih e.switch e.port).follow (by rw [nextPlace?, hport]; exact hpeer) hhop hgoal
        | none => exact .stranded hport hgoal hpeer

/-! ## Between hosts -/

theorem located_eq_ok {mac : Mac} {h : Host} {e : Endpoint} :
    n.located w mac = .ok (h, e) ↔ n.hosts.get? mac = some h ∧ n.Homed w mac e := by
  rw [← accessPoint?_eq_some, located]
  cases hx : n.hosts.get? mac with
  | none => simp
  | some x =>
    cases n.accessPoint? w mac with
    | none => simp
    | some e' => simp

theorem located_iff {mac : Mac} : (∃ x, n.located w mac = .ok x) ↔
    ∃ e, n.seenOn mac e.switch = some e.port ∧ isAccess w e = true := by
  constructor
  · rintro ⟨⟨h, e⟩, hx⟩
    exact ⟨e, (located_eq_ok.mp hx).2.seen, (located_eq_ok.mp hx).2.access⟩
  · rintro ⟨e, hseen, haccess⟩
    obtain ⟨e', he'⟩ := accessPoint?_isSome hseen haccess
    obtain ⟨x, hx, -⟩ := Option.bind_eq_some_iff.mp he'
    exact ⟨(x, e'), located_eq_ok.mpr ⟨hx, accessPoint?_eq_some.mp he'⟩⟩

theorem hostRoute_eq_ok {src : Mac} {r : HostRoute} : n.hostRoute w src (some dst) = .ok r ↔
    ∃ h start other goal, n.located w src = .ok (h, start) ∧ n.located w dst = .ok (other, goal) ∧
      r = ⟨h.ips.keys.head?, other.ips.keys.head?,
        approach w ⟨dst, other.sightings, goal⟩ hopLimit start.switch start.port⟩ := by
  simp only [hostRoute, bind, Except.bind]
  cases n.located w src with
  | error _ => simp
  | ok x =>
    cases n.located w dst with
    | error _ => simp
    | ok y => simp [Prod.ext_iff, eq_comm]

/-- There is a route from one host to another exactly when each of them is seen on some access port.
It starts from the access point of the one and is the walk along the configured stack links, each
switch left by the port on which it sees the other, for five hops at the most. It is healthy if a
switch that it passes is that of the goal, and then it leaves by the goal; if not, a switch that it
passes does not see the host, or sees it on a port that leads nowhere, or five hops are not enough.
No route finds the host on the switch of its access point but at another port. -/
theorem hostRoute_exact (n : Network) (w : Wiring) (src dst : Mac) :
    ((∃ r, n.hostRoute w src (some dst) = .ok r) ↔
      ∀ mac ∈ [src, dst], ∃ e, n.seenOn mac e.switch = some e.port ∧ isAccess w e = true) ∧
    ∀ r, n.hostRoute w src (some dst) = .ok r →
      ∃ start goal, n.Homed w src start ∧ n.Homed w dst goal ∧
        n.Approached w dst goal 5 start r.route ∧
        (r.route.hops.IsChain fun h h' => ∃ out into, h.outPort = some out ∧
          stackPeer? w ⟨h.switch, out⟩ = some into ∧ h'.switch = into.switch ∧ h'.inPort = some into.port) ∧
        (r.route.fault = none → ∃ last, r.route.hops.getLast? = some last ∧ last.switch = goal.switch ∧
          last.outPort = some goal.port) ∧
        (r.route.fault = some (.tooLong dst) → r.route.hops.length = 5) ∧
        ∀ mac place expected, r.route.fault ≠ some (.misplaced mac place expected) := by
  refine ⟨?_, fun r hr => ?_⟩
  · rw [List.forall_mem_cons, List.forall_mem_singleton, ← located_iff, ← located_iff]
    constructor
    · rintro ⟨r, hr⟩
      obtain ⟨_, _, _, _, hsrc, hdst, -⟩ := hostRoute_eq_ok.mp hr
      exact ⟨⟨_, hsrc⟩, ⟨_, hdst⟩⟩
    · rintro ⟨⟨⟨h, start⟩, hsrc⟩, ⟨other, goal⟩, hdst⟩
      exact ⟨_, hostRoute_eq_ok.mpr ⟨h, start, other, goal, hsrc, hdst, rfl⟩⟩
  · obtain ⟨_, start, other, goal, hsrc, hdst, rfl⟩ := hostRoute_eq_ok.mp hr
    obtain ⟨-, hstart⟩ := located_eq_ok.mp hsrc
    obtain ⟨hother, hgoal⟩ := located_eq_ok.mp hdst
    have hend : stackPeer? w goal = none := stackPeer?_access hgoal.access
    have happroached : n.Approached w dst goal 5 start
        (approach w ⟨dst, other.sightings, goal⟩ hopLimit start.switch start.port) :=
      approach_approached ⟨dst, other.sightings, goal⟩
        (fun s => by rw [seenOn, sighting?, hother]; rfl) hgoal.seen hend hopLimit start.switch start.port
    refine ⟨start, goal, hstart, hgoal, happroached, happroached.joined, happroached.leaves hgoal.seen hend,
      happroached.full, fun mac place expected hfault => ?_⟩
    rcases happroached.only with h | h | ⟨_, h⟩ | ⟨_, h⟩
    all_goals rw [h] at hfault; cases hfault

section Small

/-- Two switches, each with an access port and a port to the other. -/
def stackedWiring : Wiring :=
  let port (peer : Option Endpoint) : Interface := ⟨none, none, none, peer, none, none, none, [], none⟩
  ⟨.ofList [
    ("sw1", ⟨some 1, none, .ofList [(.number 1, port none), (.number 2, port (some ⟨"sw2", 2⟩))], ∅⟩),
    ("sw2", ⟨some 2, none, .ofList [(.number 1, port none), (.number 2, port (some ⟨"sw1", 2⟩))], ∅⟩)]⟩

def nearHost : Mac := ⟨"0e:00:00:00:00:0a"⟩
def farHost : Mac := ⟨"0e:00:00:00:00:0b"⟩

/-- One switch sees the far host across the stack. -/
def stackedHosts : Network :=
  (Outcome.forEach [(⟨"sw1", 1⟩, nearHost), (⟨"sw2", 1⟩, farHost), (⟨"sw1", 2⟩, farHost)]
    (fun (e, mac) => learn stackedWiring 1000 e mac ⟨none, none⟩) .empty).network

theorem hostRoute_exact_small :
    let across : Route := ⟨[⟨"sw1", some 1, some 2⟩, ⟨"sw2", some 2, some 1⟩], none⟩
    stackedHosts.hostRoute stackedWiring nearHost (some farHost) = .ok ⟨none, none, across⟩ ∧
      ∃ start goal, stackedHosts.Homed stackedWiring nearHost start ∧
        stackedHosts.Homed stackedWiring farHost goal ∧
        stackedHosts.Approached stackedWiring farHost goal 5 start across := by
  intro across
  have hroute : stackedHosts.hostRoute stackedWiring nearHost (some farHost) = .ok ⟨none, none, across⟩ := by
    decide +kernel
  obtain ⟨start, goal, hstart, hgoal, happroached, -⟩ :=
    (hostRoute_exact stackedHosts stackedWiring nearHost farHost).2 _ hroute
  exact ⟨hroute, start, goal, hstart, hgoal, happroached⟩

end Small

end Fabric.Network
