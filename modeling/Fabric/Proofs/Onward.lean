import Fabric.Proofs.Climb

/-! How a route to the egress goes on from one of its switches. A climb looks at the port by which a
switch is entered, and at every crossing before, for one thing only: to see that it has come back.
One that never comes back is therefore the route that it would be without any memory (`Onward`), and
there the entry shows in the first hop and nowhere else. Two climbs from one switch may stop at
different hops of a ring, but whether there is a ring is not up to the entry (`Ending.loop_iff`). -/

namespace Fabric

/-- The same route, entered by another port. -/
def Route.enteredBy (i : Option UInt32) (r : Route) : Route :=
  match r.hops with
  | [] => r
  | h :: hs => { r with hops := { h with inPort := i } :: hs }

namespace Network

open Fabric.Topology

variable {t : Topology} {rootExit : Option UInt32} {s : String} {i : Option UInt32} {r : Route}

/-- The route from a switch when nothing that was crossed is remembered. There is none where the walk
never stops. -/
inductive Onward (t : Topology) (rootExit : Option UInt32) : String → Option UInt32 → Route → Prop where
  | root {s : String} {i : Option UInt32} : t.rootHop? s = none → t.isRoot s = true →
      Onward t rootExit s i ⟨[⟨s, i, rootExit⟩], none⟩
  | astray {s : String} {i : Option UInt32} : t.rootHop? s = none → t.isRoot s = false →
      Onward t rootExit s i ⟨[], some .rootAbsent⟩
  | dangling {s : String} {i : Option UInt32} {out : UInt32} : t.rootHop? s = some out →
      t.peer? ⟨s, out⟩ = none → Onward t rootExit s i ⟨[⟨s, i, some out⟩], some .rootAbsent⟩
  | hop {s : String} {i : Option UInt32} {out : UInt32} {e : Endpoint} {r : Route} :
      t.rootHop? s = some out → t.peer? ⟨s, out⟩ = some e → Onward t rootExit e.switch (some e.port) r →
      Onward t rootExit s i (.follow ⟨s, i, some out⟩ r)

namespace Onward

theorem unique {r' : Route} (h : Onward t rootExit s i r) (h' : Onward t rootExit s i r') : r = r' := by
  induction h generalizing r' with
  | root | astray | dangling => cases h' <;> simp_all
  | hop hout hpeer _ ih =>
    cases h' with
    | hop hout' hpeer' hrest =>
      cases hout.symm.trans hout'
      cases hpeer.symm.trans hpeer'
      rw [ih hrest]
    | root | astray | dangling => simp_all

/-- Only the first hop shows how the switch was entered. -/
theorem enteredBy (h : Onward t rootExit s i r) (j : Option UInt32) :
    Onward t rootExit s j (r.enteredBy j) := by
  cases h with
  | root hout hroot => exact .root hout hroot
  | astray hout hroot => exact .astray hout hroot
  | dangling hout hpeer => exact .dangling hout hpeer
  | hop hout hpeer hrest => exact .hop hout hpeer hrest

/-- What is left of the route at one of its hops is the route from there. -/
theorem drop (h : Onward t rootExit s i r) {k : Nat} {x : Hop} (hk : r.hops[k]? = some x) :
    Onward t rootExit x.switch x.inPort ⟨r.hops.drop k, r.fault⟩ := by
  induction h generalizing k with
  | astray => simp at hk
  | root hout hroot =>
    obtain ⟨rfl, rfl⟩ : k = 0 ∧ _ = x := by simpa [List.getElem?_cons] using hk
    exact .root hout hroot
  | dangling hout hpeer =>
    obtain ⟨rfl, rfl⟩ : k = 0 ∧ _ = x := by simpa [List.getElem?_cons] using hk
    exact .dangling hout hpeer
  | hop hout hpeer hrest ih =>
    cases k with
    | zero =>
      cases hk
      exact .hop hout hpeer hrest
    | succ k => exact ih (by simpa [Route.follow] using hk)

theorem stops (h : Onward t rootExit s i r) : ∃ k, t.ahead? s k = none := by
  induction h with
  | @root s _ hout _ => exact ⟨1, ahead?_stop (k := 0) (r := s) rfl (next?_eq_none hout)⟩
  | @astray s _ hout _ => exact ⟨1, ahead?_stop (k := 0) (r := s) rfl (next?_eq_none hout)⟩
  | @dangling s _ _ hout hpeer =>
    exact ⟨1, ahead?_stop (k := 0) (r := s) rfl (by rw [next?_eq hout, hpeer]; rfl)⟩
  | hop hout hpeer _ ih =>
    obtain ⟨k, hk⟩ := ih
    exact ⟨k + 1, by rw [ahead?_next (by rw [next?_eq hout, hpeer]; rfl), hk]⟩

end Onward

/-- A climb that has not come back did not need to remember. -/
theorem Ending.onward {made hs : List Hop} {s' : String} {i' : Option UInt32}
    (trail : Trail t s i hs s' i') (h : Ending t rootExit made hs s' i' r) (hloop : r.fault ≠ some .loop) :
    Onward t rootExit s i r := by
  induction trail generalizing r with
  | here =>
    cases h with
    | root hout hroot => exact .root hout hroot
    | astray hout hroot => exact .astray hout hroot
    | dangling hout hpeer => exact .dangling hout hpeer
    | again => exact absurd rfl hloop
  | hop hout hpeer _ ih =>
    cases h with
    | root hout' hroot' => exact .hop hout hpeer (ih (.root hout' hroot') hloop)
    | astray hout' hroot' => exact .hop hout hpeer (ih (.astray hout' hroot') hloop)
    | dangling hout' hpeer' => exact .hop hout hpeer (ih (.dangling hout' hpeer') hloop)
    | again => exact absurd rfl hloop

theorem routeToEgress_loop_iff (n : Network) (w : Wiring) (s : String) (i : Option UInt32) :
    (n.routeToEgress w s i).fault = some .loop ↔ ∀ k, n.topology.applied.ahead? s k ≠ none := by
  obtain ⟨_, _, _, trail, -, hend⟩ := n.routeToEgress_ending w s i
  exact hend.loop_iff trail

theorem onward_iff (n : Network) (w : Wiring) (s : String) (i : Option UInt32) (r : Route) :
    Onward n.topology.applied (n.rootEgressPort w) s i r ↔
      n.routeToEgress w s i = r ∧ r.fault ≠ some .loop := by
  have honward (hloop : (n.routeToEgress w s i).fault ≠ some .loop) :
      Onward n.topology.applied (n.rootEgressPort w) s i (n.routeToEgress w s i) := by
    obtain ⟨_, _, _, trail, -, hend⟩ := n.routeToEgress_ending w s i
    exact hend.onward trail hloop
  constructor
  · intro h
    have hloop : (n.routeToEgress w s i).fault ≠ some .loop := by
      obtain ⟨k, hk⟩ := h.stops
      exact fun hloop => (n.routeToEgress_loop_iff w s i).mp hloop k hk
    have heq := (honward hloop).unique h
    exact ⟨heq, heq ▸ hloop⟩
  · rintro ⟨rfl, hloop⟩
    exact honward hloop

/-- However a switch is entered, its route to the egress has the same verdict, and unless that is a
loop the same hops, but for the entry that the first of them shows. At every hop of a route that is
no loop, the rest of it is the route of what enters that switch as the hop does. -/
theorem routeToEgress_onward (n : Network) (w : Wiring) (s : String) (i j : Option UInt32) :
    let r := n.routeToEgress w s i
    (n.routeToEgress w s j).fault = r.fault ∧
      (r.fault ≠ some .loop → n.routeToEgress w s j = r.enteredBy j ∧
        ∀ k h, r.hops[k]? = some h →
          n.routeToEgress w h.switch h.inPort = ⟨r.hops.drop k, r.fault⟩) := by
  intro r
  by_cases hloop : r.fault = some .loop
  · have hloop' : (n.routeToEgress w s j).fault = some .loop := by
      rw [routeToEgress_loop_iff, ← n.routeToEgress_loop_iff w s i]
      exact hloop
    exact ⟨hloop'.trans hloop.symm, fun hno => absurd hloop hno⟩
  · have honward := (n.onward_iff w s i r).mpr ⟨rfl, hloop⟩
    have hentered : n.routeToEgress w s j = r.enteredBy j :=
      ((n.onward_iff w s j _).mp (honward.enteredBy j)).1
    refine ⟨?_, fun _ => ⟨hentered, fun k h hk => ?_⟩⟩
    · rw [hentered, Route.enteredBy]
      split <;> rfl
    · exact ((n.onward_iff w h.switch h.inPort _).mp (honward.drop hk)).1

/-- Round a ring the entry decides where the climb has been before: of two switches that lead to each
other, one that is entered by the link of the ring is not passed again. -/
example :
    let ring : Link := .between ⟨"sw1", 1⟩ ⟨"sw2", 1⟩
    let t : Topology := ⟨none, Table.ofList [("sw1", 1), ("sw2", 1)], KeySet.ofList [ring]⟩
    (climb t none 4 [] "sw1" none).hops.length = 3 ∧ (climb t none 4 [] "sw1" (some 1)).hops.length = 2 := by
  decide +kernel

end Network
end Fabric
