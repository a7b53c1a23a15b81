import Fabric.Engine.Query
import Fabric.Proofs.Climb
import Fabric.Proofs.Filing
import Fabric.Proofs.LevelTriggered
import Fabric.Proofs.Texts

/-! Routes against link states. A route is made from the topology in force alone, and the state of
a link is kept in a table; they agree all the same. Each hop but the last leaves by the root hop
port of its switch, along a link in force (`Ending.leaves`, `Trail.joined`), such a link is tracked,
and its state is never out of date (`Level`): it is active, unless an end of it is reported as
bad. The view of the dataplane files links under their texts, so a switch with a colon in its name
can hide one. -/

namespace Fabric

/-- The link by which one goes from a hop to the next. -/
def Hop.crossing? (h h' : Hop) : Option Link :=
  h.outPort.bind fun out => h'.inPort.map fun into => .between ⟨h.switch, out⟩ ⟨h'.switch, into⟩

theorem Link.mem_ends_between (x y e : Endpoint) : e ∈ (between x y).ends ↔ e = x ∨ e = y := by
  unfold between
  split <;> simp [ends, or_comm]

theorem Topology.Joined.crossing? {t : Topology} {h h' : Hop} (hj : t.Joined h h') :
    ∃ l, h.crossing? h' = some l ∧ t.links.contains l = true := by
  obtain ⟨out, into, hout, hinto, hlink⟩ := hj
  exact ⟨_, by rw [Hop.crossing?, hout, hinto]; rfl, hlink⟩

namespace Network

open Fabric.Topology

/-- An active link, or one that would be active if no end of it were reported as bad. -/
def Bears (n : Network) (x : TrackedLink) : Prop :=
  x.state = .active ∨ (x.state = .broken ∧ ∃ e ∈ x.link.ends, n.stackState? e = some .bad)

/-- A link in force at a root hop port is active, or broken. -/
theorem linkState_rootHop (n : Network) {l : Link} (hin : n.topology.applied.links.contains l = true)
    {e : Endpoint} (he : e ∈ l.ends) (hhop : n.topology.applied.rootHop? e.switch = some e.port) :
    n.linkState l = .active ∨ (n.linkState l = .broken ∧ ∃ e ∈ l.ends, n.stackState? e = some .bad) := by
  have hroot : n.topology.applied.rootHop? l.a.switch = some l.a.port ∨
      n.topology.applied.rootHop? l.b.switch = some l.b.port := by
    rcases (by simpa [Link.ends] using he : e = l.a ∨ e = l.b) with rfl | rfl
    · exact .inl hhop
    · exact .inr hhop
  rw [linkState_eq, derivedState]
  by_cases hbad : n.stackState? l.a = some .bad ∨ n.stackState? l.b = some .bad
  · rw [if_pos hbad]
    refine .inr ⟨rfl, ?_⟩
    rcases hbad with ha | hb
    · exact ⟨l.a, by simp [Link.ends], ha⟩
    · exact ⟨l.b, by simp [Link.ends], hb⟩
  · rw [if_neg hbad, if_pos (.inl hin), if_pos hroot]
    exact .inl rfl

/-- Where one hop leaves by the root hop port and the next is at the other end. -/
theorem bears_crossing {w : Wiring} {n : Network} (level : Level w n) (filed : n.Filed) {h h' : Hop}
    (hleaves : n.topology.applied.Leaves h) (hjoined : n.topology.applied.Joined h h') :
    ∃ l x, h.crossing? h' = some l ∧ n.links.get? l = some x ∧ x.link = l ∧ n.Bears x := by
  obtain ⟨l, hl, hin⟩ := hjoined.crossing?
  obtain ⟨out, hhop, hout⟩ := hleaves
  obtain ⟨x, hx⟩ := Table.contains_iff.mp (level.applied l hin)
  have hkey := filed.keyed l x hx
  have hend : (⟨h.switch, out⟩ : Endpoint) ∈ l.ends := by
    obtain ⟨out', into, hout', hinto, -⟩ := hjoined
    rw [Hop.crossing?, hout', hinto] at hl
    cases hl
    cases hout.symm.trans hout'
    exact (Link.mem_ends_between ..).mpr (.inl rfl)
  refine ⟨l, x, hl, hx, hkey, ?_⟩
  rw [Bears, level.current l x hx, hkey]
  exact linkState_rootHop n hin hend hhop

/-- All hops before the last leave by root hop ports, and all are joined. -/
theorem routeToEgress_chain (n : Network) (w : Wiring) (s : String) (i : Option UInt32) :
    (n.routeToEgress w s i).hops.IsChain fun h h' =>
      n.topology.applied.Leaves h ∧ n.topology.applied.Joined h h' := by
  obtain ⟨hs, s', i', trail, -, hend⟩ := n.routeToEgress_ending w s i
  obtain ⟨out, rest, hhops⟩ := hend.hops
  have hjoined : (n.routeToEgress w s i).hops.IsChain n.topology.applied.Joined := by
    have hall := trail.joined out
    rw [← hhops] at hall
    exact hall.left_of_append
  have hleaves := (hend.leaves trail).1
  rw [List.isChain_iff_getElem] at hjoined ⊢
  intro k hk
  have hmem := List.getElem_mem (l := (n.routeToEgress w s i).hops.dropLast) (n := k)
    (by rw [List.length_dropLast]; omega)
  rw [List.getElem_dropLast] at hmem
  exact ⟨hleaves _ hmem, hjoined k hk⟩

/-! ## As the dataplane is shown -/

/-- Under the text of a tracked link stands a tracked link with that text. -/
theorem get?_linksView (n : Network) (w : Wiring) (filed : n.Filed) {l : Link} {x : TrackedLink}
    (hx : n.links.get? l = some x) :
    ∃ y, (n.dataplaneView w).links.get? l.text = some y ∧ y.link.text = l.text ∧
      n.links.get? y.link = some y := by
  have hkey := filed.keyed l x hx
  have hlisted : (n.dataplaneView w).links.contains l.text = true := by
    refine Table.contains_ofList.mpr ?_
    rw [List.map_map, List.mem_map]
    exact ⟨x, Table.mem_values.mpr ⟨l, hx⟩, by rw [← hkey]; rfl⟩
  obtain ⟨y, hy⟩ := Table.contains_iff.mp hlisted
  obtain ⟨z, hz, heq⟩ := List.mem_map.mp (Table.mem_of_get?_ofList hy)
  obtain ⟨htext, rfl⟩ := Prod.mk.inj heq
  obtain ⟨k, hk⟩ := Table.mem_values.mp hz
  have hkey' := filed.keyed k z hk
  exact ⟨z, hy, htext, hkey' ▸ hk⟩

/-- A link without a colon in the names of its switches stands under its text itself. -/
theorem get?_linksView_plain (n : Network) (w : Wiring) (filed : n.Filed) {l : Link} {x : TrackedLink}
    (hx : n.links.get? l = some x) (hplain : l.Plain) :
    (n.dataplaneView w).links.get? l.text = some x := by
  obtain ⟨y, hy, htext, htracked⟩ := n.get?_linksView w filed hx
  cases Link.text_inj htext.symm hplain
  rw [hx] at htracked
  rw [hy, htracked]

end Network

namespace Engine

open Network

/-- Whatever was done to an engine, and however little of it has been applied yet, each two
consecutive hops of a route to the egress, healthy or not, cross a tracked link that is active, or
broken because one of its ends is reported as bad. In the view of the dataplane a tracked link with
the same text stands under the text of the link; it is the link that is crossed unless a switch at
an end of it has a colon in its name. -/
theorem run_crossings (config : EngineConfig) (ops : List Operation) (s : String) (i : Option UInt32) :
    let g := ((fresh config).run ops).1
    let view := g.network.dataplaneView g.wiring
    (g.network.routeToEgress g.wiring s i).hops.IsChain fun h h' =>
      ∃ l x, h.crossing? h' = some l ∧ g.network.links.get? l = some x ∧ x.link = l ∧
        g.network.Bears x ∧
        (∃ y, view.links.get? l.text = some y ∧ y.link.text = l.text ∧
          g.network.links.get? y.link = some y) ∧
        (l.Plain → view.links.get? l.text = some x) := by
  intro g view
  have level : Level g.wiring g.network := Level.kept.run config ops
  have filed : g.network.Filed := Filed.kept.run config ops
  refine (g.network.routeToEgress_chain g.wiring s i).imp fun h h' hcross => ?_
  obtain ⟨l, x, hl, hx, hkey, hbears⟩ := bears_crossing level filed hcross.1 hcross.2
  exact ⟨l, x, hl, hx, hkey, hbears, g.network.get?_linksView g.wiring filed hx,
    g.network.get?_linksView_plain g.wiring filed hx⟩

section Small

/-- A link from a switch to the root, and another one with the same text. -/
def crossedLink : Link := .between ⟨"a", 1⟩ ⟨"b:1-c", 2⟩
def hidingLink : Link := .between ⟨"a:1-b", 1⟩ ⟨"c", 2⟩

def hiddenOps : List Operation :=
  [ .update 0 (.stage ⟨some "b:1-c", .ofList [("a", 1)], .ofList [crossedLink, hidingLink]⟩),
    .heartbeat 0 ]

/-- The view need not have the link that is crossed: here another one stands under its text. -/
theorem crossing_hidden :
    ¬ ∀ (config : EngineConfig) (ops : List Operation) (s : String) (i : Option UInt32),
      let g := ((fresh config).run ops).1
      (g.network.routeToEgress g.wiring s i).hops.IsChain fun h h' =>
        ∃ l x, h.crossing? h' = some l ∧ (g.network.dataplaneView g.wiring).links.get? l.text = some x ∧
          x.link = l ∧ x.state ≠ .up ∧ x.state ≠ .down := by
  intro hall
  have hclaim := hall .usual hiddenOps "a" none
  have hroute : ((fresh .usual).run hiddenOps).1.network.routeToEgress
      ((fresh .usual).run hiddenOps).1.wiring "a" none =
        ⟨[⟨"a", none, some 1⟩, ⟨"b:1-c", some 2, none⟩], none⟩ := by
    decide +kernel
  have hshown : (((fresh .usual).run hiddenOps).1.network.dataplaneView
      ((fresh .usual).run hiddenOps).1.wiring).links.get? crossedLink.text =
        some ⟨hidingLink, .up, ⟨1, some 0⟩⟩ := by
    decide +kernel
  have hdistinct : hidingLink ≠ crossedLink := by decide +kernel
  dsimp only at hclaim
  rw [hroute] at hclaim
  obtain ⟨l, x, hl, hx, hlink, -⟩ := (List.isChain_cons_cons.mp hclaim).1
  cases hl
  cases hshown.symm.trans hx
  exact hdistinct hlink

end Small
end Engine
end Fabric
