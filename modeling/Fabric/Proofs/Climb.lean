import Mathlib.Data.List.Chain
import Mathlib.Data.List.Nodup
import Mathlib.Data.List.Perm.Subperm
import Fabric.Network.Route
import Fabric.Proofs.Tables

/-! Routes to the root. A topology gives each switch at most one next switch, so a walk from a
switch is the sequence of what lies ahead (`ahead?`): it stops at the root, stops elsewhere, or
never stops. A route to the egress is that sequence as far as it is new. It remembers crossings and
not switches, so a ring that is entered from outside is passed once more at its entry, by another
port. Every crossing but the first is fixed by the switch before it, and no two switches
before the last are the same, so there is one hop more than there are root hop ports at the most. -/

namespace Fabric

namespace Link

/-- The other end, seen from one end. -/
def far (l : Link) (e : Endpoint) : Endpoint := if l.a = e then l.b else l.a

theorem between_a_b (l : Link) : between l.a l.b = l := by
  simp [between, l.ordered]

theorem between_b_a (l : Link) : between l.b l.a = l := by
  unfold between
  split
  next => rfl
  next h =>
    have hab : compare l.a l.b = .eq := by
      cases hc : compare l.a l.b with
      | eq => rfl
      | gt => exact absurd hc l.ordered
      | lt => exact absurd (Std.OrientedCmp.gt_iff_lt.mpr hc) h
    have hends : l.a = l.b := Std.LawfulEqOrd.eq_of_compare hab
    obtain ⟨a, b, hl⟩ := l
    cases hends
    rfl

theorem peer?_eq (l : Link) (e : Endpoint) : l.peer? e = if e ∈ l.ends then some (l.far e) else none := by
  unfold peer? far ends
  by_cases ha : l.a = e
  · simp [ha]
  · by_cases hb : l.b = e
    · simp [ha, hb]
    · simp [ha, hb, Ne.symm ha, Ne.symm hb]

theorem between_far {l : Link} {e : Endpoint} (h : e ∈ l.ends) : between e (l.far e) = l := by
  unfold far
  by_cases ha : l.a = e
  · rw [if_pos ha, ← ha]
    exact l.between_a_b
  · have hb : e = l.b := by simpa [ends, Ne.symm ha] using h
    rw [if_neg ha, hb]
    exact l.between_b_a

end Link

namespace Topology

variable {t : Topology}

/-- The first applied link, in key order, that ends here. -/
def linkAt? (t : Topology) (e : Endpoint) : Option Link := t.links.keys.find? fun l => e ∈ l.ends

/-- The switch at the far end of the link at a switch's root hop port. -/
def next? (t : Topology) (s : String) : Option String :=
  (t.rootHop? s).bind fun out => (t.linkAt? ⟨s, out⟩).map fun l => (l.far ⟨s, out⟩).switch

/-- Where so many steps from a switch lead. -/
def ahead? (t : Topology) (s : String) : Nat → Option String
  | 0 => some s
  | k + 1 => (t.ahead? s k).bind t.next?

theorem peer?_eq (t : Topology) (e : Endpoint) : t.peer? e = (t.linkAt? e).map (·.far e) := by
  unfold peer? linkAt?
  induction t.links.keys with
  | nil => rfl
  | cons l r ih =>
    rw [List.findSome?_cons, Link.peer?_eq, List.find?_cons]
    by_cases h : e ∈ l.ends <;> simp [h, ih]

theorem peer?_eq_none {e : Endpoint} : t.peer? e = none ↔ t.linkAt? e = none := by
  simp [peer?_eq]

theorem contains_of_peer? {e far : Endpoint} (h : t.peer? e = some far) :
    t.links.contains (.between e far) = true := by
  rw [peer?_eq, Option.map_eq_some_iff] at h
  obtain ⟨l, hl, rfl⟩ := h
  have hend : e ∈ l.ends := by simpa using List.find?_some hl
  rw [Link.between_far hend]
  exact Table.mem_keys.mp (List.mem_of_find?_eq_some hl)

theorem next?_eq {s : String} {out : UInt32} (h : t.rootHop? s = some out) :
    t.next? s = (t.peer? ⟨s, out⟩).map (·.switch) := by
  rw [peer?_eq, next?, h, Option.map_map]
  rfl

theorem next?_eq_none {s : String} (h : t.rootHop? s = none) : t.next? s = none := by
  rw [next?, h]
  rfl

/-- Nothing leads on from the root. -/
def AtRoot (t : Topology) (s : String) : Prop := t.rootHop? s = none ∧ t.isRoot s = true

/-- Nothing leads on from a switch that is not the root, or there is no link where it should. -/
def Astray (t : Topology) (s : String) : Prop :=
  (t.rootHop? s = none ∧ t.isRoot s = false) ∨ ∃ out, t.rootHop? s = some out ∧ t.linkAt? ⟨s, out⟩ = none

theorem AtRoot.next? {s : String} (h : t.AtRoot s) : t.next? s = none := next?_eq_none h.1

theorem Astray.next? {s : String} (h : t.Astray s) : t.next? s = none := by
  rcases h with ⟨hout, _⟩ | ⟨out, hout, hlink⟩
  · exact next?_eq_none hout
  · rw [next?_eq hout, peer?_eq, hlink]
    rfl

theorem AtRoot.not_astray {s : String} (h : t.AtRoot s) : ¬ t.Astray s := by
  rintro (⟨_, hroot⟩ | ⟨out, hout, _⟩)
  · rw [h.2] at hroot
    cases hroot
  · rw [h.1] at hout
    cases hout

/-! ## What lies ahead -/

theorem ahead?_add (s : String) (j k : Nat) : t.ahead? s (j + k) = (t.ahead? s j).bind (t.ahead? · k) := by
  induction k with
  | zero => cases t.ahead? s j <;> simp [ahead?]
  | succ k ih =>
    rw [← Nat.add_assoc, ahead?, ih, Option.bind_assoc]
    rfl

theorem ahead?_next {s r : String} (h : t.next? s = some r) (k : Nat) :
    t.ahead? s (k + 1) = t.ahead? r k := by
  rw [Nat.add_comm, ahead?_add]
  simp [ahead?, h]

/-- A walk that comes back goes on forever. -/
theorem ahead?_return {s : String} {k : Nat} (h : t.ahead? s (k + 1) = some s) (n : Nat) :
    t.ahead? s n ≠ none := by
  induction n using Nat.strongRecOn with
  | ind n ih =>
    by_cases hn : n ≤ k
    · -- a walk that stopped before it came back could not come back
      intro hstop
      have : t.ahead? s (n + (k + 1 - n)) = none := by rw [ahead?_add, hstop, Option.bind_none]
      rw [Nat.add_sub_cancel' (by omega), h] at this
      cases this
    · obtain ⟨m, rfl⟩ : ∃ m, n = (k + 1) + m := ⟨n - (k + 1), by omega⟩
      rw [ahead?_add, h]
      exact ih m (by omega)

/-- A walk that can be gone on with from a switch where it goes on forever does. -/
theorem ahead?_forever {s r : String} {k : Nat} (h : t.ahead? s k = some r)
    (hr : ∀ n, t.ahead? r n ≠ none) (n : Nat) : t.ahead? s n ≠ none := by
  intro hstop
  have hlater : t.ahead? s (n + k) = none := by rw [ahead?_add, hstop, Option.bind_none]
  rw [Nat.add_comm, ahead?_add, h] at hlater
  exact hr n hlater

theorem ahead?_stop {s r : String} {k : Nat} (h : t.ahead? s k = some r) (hr : t.next? r = none) :
    t.ahead? s (k + 1) = none := by
  rw [ahead?, h]
  exact hr

/-- A walk stops at one switch only. -/
theorem stop_unique {s r r' : String} {k k' : Nat} (h : t.ahead? s k = some r) (hr : t.next? r = none)
    (h' : t.ahead? s k' = some r') (hr' : t.next? r' = none) : r = r' := by
  have hle (m m' : Nat) (x x' : String) (hm : t.ahead? s m = some x) (hx : t.next? x = none)
      (hm' : t.ahead? s m' = some x') : m' ≤ m := by
    by_contra hlt
    have hstop : t.ahead? s (m + 1 + (m' - (m + 1))) = none := by
      rw [ahead?_add, ahead?_stop hm hx, Option.bind_none]
    rw [Nat.add_sub_cancel' (by omega), hm'] at hstop
    cases hstop
  have hk : k = k' := Nat.le_antisymm (hle k' k r' r h' hr' h) (hle k k' r r' h hr h')
  subst hk
  exact Option.some.inj (h.symm.trans h')

/-! ## Trails -/

/-- Hops along the root hop ports, from where a switch is entered to where another one is. -/
inductive Trail (t : Topology) : String → Option UInt32 → List Hop → String → Option UInt32 → Prop where
  | here (s : String) (i : Option UInt32) : Trail t s i [] s i
  | hop {s s' : String} {i i' : Option UInt32} {out : UInt32} {e : Endpoint} {hs : List Hop} :
      t.rootHop? s = some out → t.peer? ⟨s, out⟩ = some e → Trail t e.switch (some e.port) hs s' i' →
      Trail t s i (⟨s, i, some out⟩ :: hs) s' i'

/-- One hop leaves by an end of an applied link, and the other enters by the other end. -/
def Joined (t : Topology) (h h' : Hop) : Prop :=
  ∃ out into, h.outPort = some out ∧ h'.inPort = some into ∧
    t.links.contains (.between ⟨h.switch, out⟩ ⟨h'.switch, into⟩) = true

/-- The hop by the switch's root hop port. -/
def Leaves (t : Topology) (h : Hop) : Prop := ∃ out, t.rootHop? h.switch = some out ∧ h.outPort = some out

/-- The hop that comes after a switch, if it is not the last one. -/
def hopAfter? (t : Topology) (s : String) : Option Hop :=
  (t.rootHop? s).bind fun out => (t.peer? ⟨s, out⟩).bind fun e =>
    (t.rootHop? e.switch).map fun out => ⟨e.switch, some e.port, some out⟩

namespace Trail

variable {s s' : String} {i i' : Option UInt32} {hs : List Hop}

theorem leaves (w : Trail t s i hs s' i') : ∀ h ∈ hs, t.Leaves h := by
  induction w with
  | here => simp
  | hop hout _ _ ih =>
    intro h hh
    rcases List.mem_cons.mp hh with rfl | hh
    · exact ⟨_, hout, rfl⟩
    · exact ih h hh

theorem ahead (w : Trail t s i hs s' i') : t.ahead? s hs.length = some s' := by
  induction w with
  | here => rfl
  | hop hout hpeer _ ih =>
    rw [List.length_cons, ahead?_next (by rw [next?_eq hout, hpeer]; rfl)]
    exact ih

/-- The hops, and the one that would come next, are where the walk leads. -/
theorem ahead_getElem? (w : Trail t s i hs s' i') (out : Option UInt32) {k : Nat} {h : Hop}
    (hk : (hs ++ [(⟨s', i', out⟩ : Hop)])[k]? = some h) : t.ahead? s k = some h.switch := by
  induction w generalizing k with
  | here =>
    cases k with
    | zero => cases hk; rfl
    | succ k => simp at hk
  | hop hout hpeer _ ih =>
    cases k with
    | zero => cases hk; rfl
    | succ k =>
      rw [ahead?_next (by rw [next?_eq hout, hpeer]; rfl)]
      exact ih (by simpa using hk)

theorem joined (w : Trail t s i hs s' i') (out : Option UInt32) :
    (hs ++ [(⟨s', i', out⟩ : Hop)]).IsChain t.Joined := by
  induction w with
  | here => exact .singleton _
  | @hop s s' i i' port e hs hout hpeer w ih =>
    have hjoined (o : Option UInt32) : t.Joined ⟨s, i, some port⟩ ⟨e.switch, some e.port, o⟩ :=
      ⟨port, e.port, rfl, rfl, contains_of_peer? hpeer⟩
    cases w with
    | here => exact .cons_cons (hjoined out) ih
    | hop => exact .cons_cons (hjoined _) ih

/-- From a hop on, a trail is a trail. -/
theorem after {l r : List Hop} {h : Hop} (w : Trail t s i (l ++ h :: r) s' i') :
    Trail t h.switch h.inPort (h :: r) s' i' := by
  induction l generalizing s i with
  | nil =>
    cases w with
    | hop hout hpeer w => exact .hop hout hpeer w
  | cons x l ih =>
    cases w with
    | hop _ _ w => exact ih w

/-- A trail that leads to a switch of its own goes round forever. -/
theorem forever (w : Trail t s i hs s' i') (hmem : s' ∈ hs.map (·.switch)) (n : Nat) :
    t.ahead? s n ≠ none := by
  obtain ⟨h, hh, rfl⟩ := List.mem_map.mp hmem
  obtain ⟨l, r, rfl⟩ := List.append_of_mem hh
  exact ahead?_forever w.ahead (ahead?_return w.after.ahead) n

/-- A trail to where the walk stops passes no switch twice. -/
theorem nodup_of_stop (w : Trail t s i hs s' i') (hstop : t.next? s' = none) :
    (hs.map (·.switch) ++ [s']).Nodup := by
  induction w with
  | here => simp
  | @hop s s' i i' out e hs hout hpeer w ih =>
    rw [List.map_cons, List.cons_append, List.nodup_cons]
    refine ⟨fun hmem => ?_, ih hstop⟩
    -- the switch would be met again, and the walk would go on forever
    have hnext : t.next? s = some e.switch := by rw [next?_eq hout, hpeer]; rfl
    have hagain : ∃ k, t.ahead? e.switch k = some s := by
      have hmem : s ∈ (hs ++ [(⟨s', i', none⟩ : Hop)]).map (·.switch) := by simpa using hmem
      obtain ⟨h, hh, rfl⟩ := List.mem_map.mp hmem
      obtain ⟨k, hk⟩ := List.mem_iff_getElem?.mp hh
      exact ⟨k, w.ahead_getElem? none hk⟩
    obtain ⟨k, hk⟩ := hagain
    have hreturn : t.ahead? s (k + 1) = some s := by rw [ahead?_next hnext, hk]
    exact ahead?_return hreturn _ (ahead?_stop (Trail.hop (i := i) hout hpeer w).ahead hstop)

theorem tail_eq (w : Trail t s i hs s' i') :
    hs.tail.map some = (hs.dropLast.map (·.switch)).map t.hopAfter? := by
  induction w with
  | here => rfl
  | @hop s s' i i' out e hs hout hpeer w ih =>
    cases w with
    | here => rfl
    | @hop _ _ _ _ out' _ hs hout' hpeer' w =>
      have hfirst : t.hopAfter? s = some ⟨e.switch, some e.port, some out'⟩ := by
        simp [hopAfter?, hout, hpeer, hout']
      simp only [List.tail_cons, List.map_cons, List.dropLast_cons_cons, List.map_map] at ih ⊢
      rw [hfirst, ih]

theorem switches_subset (w : Trail t s i hs s' i') : hs.map (·.switch) ⊆ t.rootHops.keys := by
  intro x hx
  obtain ⟨h, hh, rfl⟩ := List.mem_map.mp hx
  obtain ⟨out, hout, _⟩ := w.leaves h hh
  exact Table.mem_keys.mpr (Table.contains_iff.mpr ⟨out, hout⟩)

theorem length_le_of_nodup {l : List String} (hsub : l ⊆ t.rootHops.keys) (h : l.Nodup) :
    l.length ≤ t.rootHops.size := by
  have hle := (List.subperm_of_subset h hsub).length_le
  simpa [Table.keys, Table.size] using hle

/-- No crossing is made twice on a trail of more hops than this. -/
theorem length_le (w : Trail t s i hs s' i') (h : hs.Nodup) : hs.length ≤ t.rootHops.size + 1 := by
  have htail : (hs.tail.map some).Nodup := (h.sublist (List.tail_sublist hs)).map (fun _ _ => Option.some.inj)
  rw [w.tail_eq] at htail
  have hswitches : (hs.dropLast.map (·.switch)).Nodup := htail.of_map _
  have hsub : hs.dropLast.map (·.switch) ⊆ t.rootHops.keys := fun x hx =>
    w.switches_subset (List.map_subset _ (List.dropLast_subset hs) hx)
  have hle := length_le_of_nodup hsub hswitches
  simp only [List.length_map, List.length_dropLast] at hle
  omega

end Trail
end Topology

namespace Network

open Fabric.Topology

variable {t : Topology} {rootExit : Option UInt32}

/-! ## How a climb ends -/

def Crossing.hop (c : Crossing) : Hop := ⟨c.1, c.2.1, some c.2.2⟩

/-- What a climb is that has come to a switch by these hops, having made these crossings. -/
inductive Ending (t : Topology) (rootExit : Option UInt32) (made hs : List Hop) (s : String)
    (i : Option UInt32) : Route → Prop where
  | root : t.rootHop? s = none → t.isRoot s = true →
      Ending t rootExit made hs s i ⟨hs ++ [⟨s, i, rootExit⟩], none⟩
  | astray : t.rootHop? s = none → t.isRoot s = false →
      Ending t rootExit made hs s i ⟨hs, some .rootAbsent⟩
  | dangling {out : UInt32} : t.rootHop? s = some out → t.peer? ⟨s, out⟩ = none →
      Ending t rootExit made hs s i ⟨hs ++ [⟨s, i, some out⟩], some .rootAbsent⟩
  | again {out : UInt32} : ⟨s, i, some out⟩ ∈ made → Ending t rootExit made hs s i ⟨hs, some .loop⟩

theorem Ending.follow {made made' hs : List Hop} {s : String} {i : Option UInt32} {r : Route}
    (h : Ending t rootExit made hs s i r) (hmade : made ⊆ made') (x : Hop) :
    Ending t rootExit made' (x :: hs) s i (Route.follow x r) := by
  cases h with
  | root hout hroot => exact .root hout hroot
  | astray hout hroot => exact .astray hout hroot
  | dangling hout hpeer => exact .dangling hout hpeer
  | again hmem => exact .again (hmade hmem)

/-- A climb makes no crossing twice, and stops for a reason unless it is out of steps. -/
theorem climb_ending (fuel : Nat) (made : List Crossing) (s : String) (i : Option UInt32) :
    ∃ hs s' i', Trail t s i hs s' i' ∧ hs.Nodup ∧ (∀ h ∈ hs, h ∉ made.map Crossing.hop) ∧
      (Ending t rootExit (made.map Crossing.hop ++ hs) hs s' i' (climb t rootExit fuel made s i) ∨
        hs.length = fuel) := by
  induction fuel generalizing made s i with
  | zero => exact ⟨[], s, i, .here s i, .nil, by simp, .inr rfl⟩
  | succ fuel ih =>
    unfold climb
    cases hout : t.rootHop? s with
    | none =>
      refine ⟨[], s, i, .here s i, .nil, by simp, .inl ?_⟩
      cases hroot : t.isRoot s with
      | true => exact .root hout hroot
      | false => exact .astray hout hroot
    | some out =>
      dsimp only
      by_cases hmade : made.contains (s, i, out) = true
      · rw [if_pos hmade]
        have hagain : (⟨s, i, some out⟩ : Hop) ∈ made.map Crossing.hop ++ [] := by
          rw [List.append_nil]
          exact List.mem_map.mpr ⟨(s, i, out), by simpa using hmade, rfl⟩
        exact ⟨[], s, i, .here s i, .nil, by simp, .inl (.again hagain)⟩
      · rw [if_neg hmade]
        cases hpeer : t.peer? ⟨s, out⟩ with
        | none =>
          have hend : Ending t rootExit (made.map Crossing.hop ++ []) [] s i
              ⟨[] ++ [⟨s, i, some out⟩], some .rootAbsent⟩ := .dangling hout hpeer
          exact ⟨[], s, i, .here s i, .nil, by simp, .inl hend⟩
        | some e =>
          obtain ⟨hs, s', i', w, hnodup, hnew, hend⟩ := ih ((s, i, out) :: made) e.switch (some e.port)
          have hfresh : (⟨s, i, some out⟩ : Hop) ∉ made.map Crossing.hop := by
            intro hmem
            obtain ⟨⟨s₁, i₁, out₁⟩, hc, heq⟩ := List.mem_map.mp hmem
            cases heq
            exact hmade (by simpa using hc)
          refine ⟨⟨s, i, some out⟩ :: hs, s', i', .hop hout hpeer w, ?_, ?_, ?_⟩
          · exact List.nodup_cons.mpr ⟨fun hmem => hnew _ hmem (List.mem_cons_self ..), hnodup⟩
          · intro h hh
            rcases List.mem_cons.mp hh with rfl | hh
            · exact hfresh
            · exact fun hmem => hnew h hh (List.mem_cons_of_mem _ hmem)
          · rcases hend with hend | hlen
            · refine .inl (hend.follow ?_ _)
              intro h hh
              simp only [List.map_cons, List.cons_append, List.mem_cons, List.mem_append] at hh ⊢
              tauto
            · exact .inr (by rw [List.length_cons, hlen])

/-- A climb that was not out of steps is the same with more of them. -/
theorem climb_more {fuel : Nat} {made : List Crossing} {s : String} {i : Option UInt32}
    (h : (climb t rootExit fuel made s i).hops.length < fuel) (more : Nat) :
    climb t rootExit (fuel + more) made s i = climb t rootExit fuel made s i := by
  induction fuel generalizing made s i with
  | zero => cases h
  | succ fuel ih =>
    rw [Nat.add_right_comm]
    unfold climb at h ⊢
    cases hout : t.rootHop? s with
    | none => rfl
    | some out =>
      simp only [hout] at h ⊢
      split
      next => rfl
      next hmade =>
        rw [if_neg hmade] at h
        cases hpeer : t.peer? ⟨s, out⟩ with
        | none => rfl
        | some e =>
          simp only [hpeer, Route.follow, List.length_cons] at h
          simp only
          rw [ih (by omega)]

theorem Ending.length_le {hs : List Hop} {s s' : String} {i i' : Option UInt32} {r : Route}
    (h : Ending t rootExit hs hs s' i' r) (w : Trail t s i hs s' i') (hnodup : hs.Nodup) :
    r.hops.length ≤ t.rootHops.size + 1 := by
  have hstopped (hstop : t.next? s' = none) : hs.length ≤ t.rootHops.size := by
    have hswitches := (List.nodup_append.mp (w.nodup_of_stop hstop)).1
    simpa using Trail.length_le_of_nodup w.switches_subset hswitches
  cases h with
  | root hout _ =>
    have := hstopped (next?_eq_none hout)
    simp only [List.length_append, List.length_singleton]
    omega
  | astray hout _ =>
    have := hstopped (next?_eq_none hout)
    simp only
    omega
  | dangling hout hpeer =>
    have := hstopped (by rw [next?_eq hout, hpeer]; rfl)
    simp only [List.length_append, List.length_singleton]
    omega
  | again => exact w.length_le hnodup

/-- There are steps enough. -/
theorem routeToEgress_ending (n : Network) (w : Wiring) (s : String) (i : Option UInt32) :
    ∃ hs s' i', Trail n.topology.applied s i hs s' i' ∧ hs.Nodup ∧
      Ending n.topology.applied (n.rootEgressPort w) hs hs s' i' (n.routeToEgress w s i) := by
  obtain ⟨hs, s', i', trail, hnodup, -, hend⟩ := @climb_ending n.topology.applied
    (n.rootEgressPort w) (n.topology.applied.rootHops.size + 2) [] s i
  refine ⟨hs, s', i', trail, hnodup, hend.resolve_right fun hlen => ?_⟩
  have := trail.length_le hnodup
  omega

/-- Why a climb ends is what becomes of the walk. -/
theorem Ending.cause {hs : List Hop} {s s' : String} {i i' : Option UInt32} {r : Route}
    (h : Ending t rootExit hs hs s' i' r) (w : Trail t s i hs s' i') :
    (r.fault = none ∧ t.AtRoot s') ∨ (r.fault = some .rootAbsent ∧ t.Astray s') ∨
      (r.fault = some .loop ∧ ∀ k, t.ahead? s k ≠ none) := by
  cases h with
  | root hout hroot => exact .inl ⟨rfl, hout, hroot⟩
  | astray hout hroot => exact .inr (.inl ⟨rfl, .inl ⟨hout, hroot⟩⟩)
  | dangling hout hpeer => exact .inr (.inl ⟨rfl, .inr ⟨_, hout, peer?_eq_none.mp hpeer⟩⟩)
  | again hmem => exact .inr (.inr ⟨rfl, w.forever (List.mem_map.mpr ⟨_, hmem, rfl⟩)⟩)

section Verdict
variable {hs : List Hop} {s s' : String} {i i' : Option UInt32} {r : Route}

theorem Ending.healthy_iff (h : Ending t rootExit hs hs s' i' r) (w : Trail t s i hs s' i') :
    r.fault = none ↔ ∃ k g, t.ahead? s k = some g ∧ t.AtRoot g := by
  rcases h.cause w with ⟨hfault, hroot⟩ | ⟨hfault, hastray⟩ | ⟨hfault, hforever⟩
  · exact ⟨fun _ => ⟨_, s', w.ahead, hroot⟩, fun _ => hfault⟩
  · refine ⟨fun hr => by simp [hfault] at hr, ?_⟩
    rintro ⟨k, g, hk, hroot⟩
    cases stop_unique hk hroot.next? w.ahead hastray.next?
    exact absurd hastray hroot.not_astray
  · refine ⟨fun hr => by simp [hfault] at hr, ?_⟩
    rintro ⟨k, g, hk, hroot⟩
    exact absurd (ahead?_stop hk hroot.next?) (hforever _)

theorem Ending.loop_iff (h : Ending t rootExit hs hs s' i' r) (w : Trail t s i hs s' i') :
    r.fault = some .loop ↔ ∀ k, t.ahead? s k ≠ none := by
  rcases h.cause w with ⟨hfault, hroot⟩ | ⟨hfault, hastray⟩ | ⟨hfault, hforever⟩
  · exact ⟨fun hr => by simp [hfault] at hr, fun hall => absurd (ahead?_stop w.ahead hroot.next?) (hall _)⟩
  · exact ⟨fun hr => by simp [hfault] at hr, fun hall => absurd (ahead?_stop w.ahead hastray.next?) (hall _)⟩
  · exact ⟨fun _ => hforever, fun _ => hfault⟩

theorem Ending.rootAbsent_iff (h : Ending t rootExit hs hs s' i' r) (w : Trail t s i hs s' i') :
    r.fault = some .rootAbsent ↔ ∃ k g, t.ahead? s k = some g ∧ t.Astray g := by
  rcases h.cause w with ⟨hfault, hroot⟩ | ⟨hfault, hastray⟩ | ⟨hfault, hforever⟩
  · refine ⟨fun hr => by simp [hfault] at hr, ?_⟩
    rintro ⟨k, g, hk, hastray⟩
    cases stop_unique hk hastray.next? w.ahead hroot.next?
    exact absurd hastray hroot.not_astray
  · exact ⟨fun _ => ⟨_, s', w.ahead, hastray⟩, fun _ => hfault⟩
  · refine ⟨fun hr => by simp [hfault] at hr, ?_⟩
    rintro ⟨k, g, hk, hastray⟩
    exact absurd (ahead?_stop hk hastray.next?) (hforever _)

/-- The hops are those of the trail, and the one that would come next or none. -/
theorem Ending.hops (h : Ending t rootExit hs hs s' i' r) :
    ∃ out, r.hops <+: hs ++ [(⟨s', i', out⟩ : Hop)] := by
  cases h with
  | root => exact ⟨rootExit, List.prefix_refl _⟩
  | astray => exact ⟨none, List.prefix_append ..⟩
  | @dangling out => exact ⟨some out, List.prefix_refl _⟩
  | again => exact ⟨none, List.prefix_append ..⟩

theorem Ending.leaves (h : Ending t rootExit hs hs s' i' r) (w : Trail t s i hs s' i') :
    (∀ x ∈ r.hops.dropLast, t.Leaves x) ∧ (r.fault ≠ none → ∀ x ∈ r.hops, t.Leaves x) := by
  cases h with
  | root => exact ⟨by simpa using w.leaves, fun hr => absurd rfl hr⟩
  | astray => exact ⟨fun x hx => w.leaves x (List.dropLast_subset hs hx), fun _ => w.leaves⟩
  | dangling hout _ =>
    refine ⟨by simpa using w.leaves, fun _ x hx => ?_⟩
    rcases List.mem_append.mp hx with hx | hx
    · exact w.leaves x hx
    · rw [List.mem_singleton.mp hx]
      exact ⟨_, hout, rfl⟩
  | again => exact ⟨fun x hx => w.leaves x (List.dropLast_subset hs hx), fun _ => w.leaves⟩

theorem Ending.healthy (h : Ending t rootExit hs hs s' i' r) (w : Trail t s i hs s' i')
    (hfault : r.fault = none) : (r.hops.map (·.switch)).Nodup ∧
      ∃ last, r.hops.getLast? = some last ∧ t.AtRoot last.switch ∧ last.outPort = rootExit := by
  cases h with
  | root hout hroot =>
    have hnodup := w.nodup_of_stop (next?_eq_none hout)
    exact ⟨by simpa using hnodup, ⟨s', i', rootExit⟩, by simp, ⟨hout, hroot⟩, rfl⟩
  | astray => cases hfault
  | dangling => cases hfault
  | again => cases hfault

end Verdict

/-- The route from a switch to the egress, whatever the topology. The walk behind it ends, for it
comes out the same however many more steps it may take, and has at most one hop more than there
are root hop ports. It is healthy if what lies ahead of the switch is the root, it is a loop
if there is no end to what lies ahead, and the root is absent if what lies ahead ends elsewhere.
The hops are what lies ahead, joined by applied links from root hop port to root hop port; a healthy
route passes no switch twice and leaves the root for the egress. -/
theorem routeToEgress_exact (n : Network) (w : Wiring) (s : String) (i : Option UInt32) :
    let t := n.topology.applied
    let r := n.routeToEgress w s i
    (∀ fuel, t.rootHops.size + 2 ≤ fuel → climb t (n.rootEgressPort w) fuel [] s i = r) ∧
    r.hops.length ≤ t.rootHops.size + 1 ∧
    (r.fault = none ↔ ∃ k g, t.ahead? s k = some g ∧ t.AtRoot g) ∧
    (r.fault = some .loop ↔ ∀ k, t.ahead? s k ≠ none) ∧
    (r.fault = some .rootAbsent ↔ ∃ k g, t.ahead? s k = some g ∧ t.Astray g) ∧
    (∀ k h, r.hops[k]? = some h → t.ahead? s k = some h.switch) ∧
    (∀ h ∈ r.hops.dropLast, t.Leaves h) ∧ (r.fault ≠ none → ∀ h ∈ r.hops, t.Leaves h) ∧
    r.hops.IsChain t.Joined ∧
    (r.fault = none → (r.hops.map (·.switch)).Nodup ∧ ∃ last, r.hops.getLast? = some last ∧
      t.AtRoot last.switch ∧ last.outPort = n.rootEgressPort w) := by
  intro t r
  obtain ⟨hs, s', i', trail, hnodup, hend⟩ := n.routeToEgress_ending w s i
  have hlen : r.hops.length ≤ t.rootHops.size + 1 := hend.length_le trail hnodup
  have hleaves := hend.leaves trail
  obtain ⟨out, hhops⟩ := hend.hops
  refine ⟨fun fuel hfuel => ?_, hlen, hend.healthy_iff trail, hend.loop_iff trail,
    hend.rootAbsent_iff trail, fun k h hk => ?_, hleaves.1, hleaves.2, ?_, hend.healthy trail⟩
  · obtain ⟨more, rfl⟩ := Nat.exists_eq_add_of_le hfuel
    exact climb_more (Nat.lt_succ_of_le hlen) more
  · obtain ⟨rest, hrest⟩ := hhops
    refine trail.ahead_getElem? out ?_
    rw [← hrest, List.getElem?_append_left (List.getElem?_eq_some_iff.mp hk).1]
    exact hk
  · obtain ⟨rest, hrest⟩ := hhops
    have hjoined := trail.joined out
    rw [← hrest] at hjoined
    exact hjoined.left_of_append

/-- The bound is reached: of two switches that lead to each other, the first is left twice. -/
example :
    let t : Topology := ⟨none, Table.ofList [("sw1", 1), ("sw2", 1)], KeySet.ofList [.between ⟨"sw1", 1⟩ ⟨"sw2", 1⟩]⟩
    climb t none (t.rootHops.size + 2) [] "sw1" none =
      ⟨[⟨"sw1", none, some 1⟩, ⟨"sw2", some 1, some 1⟩, ⟨"sw1", some 1, some 1⟩], some .loop⟩ := by
  decide +kernel

end Network
end Fabric
