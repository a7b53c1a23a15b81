import Fabric.Proofs.Crossing
import Fabric.Proofs.Verdict

/-! That nothing is lost where links and members of the egress are shown. They are kept under their ends and
shown under texts, and of two entries with one text only one would be left. Texts of endpoints differ
whatever the switches are called, texts of links differ as long as no switch has a colon in its name, and a
table whose keys have texts of their own is shown in full (`Table.perm_under`). -/

namespace Fabric

namespace Table

variable {κ ν : Type} [Ord κ] [Std.LawfulEqOrd κ]

/-- The entries under the texts of their keys. -/
def under (text : κ → String) (t : Table κ ν) : List (String × ν) := t.toList.map fun (k, v) => (text k, v)

theorem perm_under (t : Table κ ν) {text : κ → String}
    (h : ∀ k ∈ t.keys, ∀ k' ∈ t.keys, text k = text k' → k = k') :
    (ofList (t.under text)).toList.Perm (t.under text) := by
  have htexts : (t.under text).map (·.1) = t.keys.map text := by
    rw [under, keys, toList, List.map_map, List.map_map]
    rfl
  refine perm_toList_ofList ?_
  rw [htexts]
  exact t.nodup_keys.map_on h

end Table

namespace Network

variable {n : Network} {w : Wiring}

/-! ## Links -/

theorem Filed.under_links (filed : n.Filed) :
    n.links.values.map (fun l => (l.link.text, l)) = n.links.under Link.text := by
  rw [Table.values, Table.under, List.map_map]
  refine List.map_congr_left fun e he => ?_
  obtain ⟨l, x⟩ := e
  have hkey : x.link = l := filed.keyed l x (Table.mem_toList.mp he)
  exact congrArg (fun l : Link => (l.text, x)) hkey

theorem Filed.perm_linksView (filed : n.Filed) (plain : ∀ l, n.links.contains l = true → l.Plain) (w : Wiring) :
    (n.dataplaneView w).links.toList.Perm (n.links.under Link.text) := by
  have hview : (n.dataplaneView w).links = Table.ofList (n.links.under Link.text) := by
    rw [← filed.under_links]
    rfl
  rw [hview]
  refine n.links.perm_under fun l hl l' _ htext => ?_
  exact Link.text_inj htext (plain l (Table.mem_keys.mp hl))

/-! ## Members of the egress -/

theorem egressView?_eq_some {v : EgressView} (h : n.egressView? w = some v) :
    v.members = Table.ofList ((n.egressMembers w).under Endpoint.text) := by
  obtain ⟨s, -, rfl⟩ := Option.map_eq_some_iff.mp h
  rfl

/-- Without an egress there is no member that could be missing. -/
theorem egressView?_eq_none : n.egressView? w = none ↔ ∀ e, (n.egressMembers w).get? e = none := by
  rw [egressView?, Option.map_eq_none_iff, egressSummary?_eq, ← Table.isEmpty_iff]
  split
  next hempty => exact ⟨fun _ => hempty, fun _ => rfl⟩
  next hempty =>
    refine ⟨fun h => ?_, fun h => absurd h hempty⟩
    split at h
    · cases h
    · split at h <;> cases h

theorem perm_egressView {v : EgressView} (h : n.egressView? w = some v) :
    v.members.toList.Perm ((n.egressMembers w).under Endpoint.text) := by
  rw [egressView?_eq_some h]
  exact (n.egressMembers w).perm_under fun _ _ _ _ htext => Endpoint.text_inj htext

end Network

namespace Engine

open Network

/-- Whatever was done to an engine, if no switch at an end of a tracked link has a colon in its name, then
tracked links have texts of their own, and the view of the dataplane lists each of them once, as it is
tracked, under its text. Endpoints have texts of their own without any condition, and the view of the
egress lists each member once, whoever reported and the silent ports that are configured for egress; there
is none exactly if there is no member. -/
theorem run_listed (config : EngineConfig) (ops : List Operation) :
    let g := ((fresh config).run ops).1
    let view := g.network.dataplaneView g.wiring
    let members := g.network.egressMembers g.wiring
    ((∀ l, g.network.links.contains l = true → l.Plain) →
      (∀ l l', g.network.links.contains l = true → l.text = l'.text → l = l') ∧
      view.links.toList.Perm (g.network.links.under Link.text) ∧
      ∀ l x, g.network.links.get? l = some x → view.links.get? l.text = some x ∧ x.link = l) ∧
    (∀ e e' : Endpoint, e.text = e'.text → e = e') ∧
    (∀ v, view.egress = some v → v.members.toList.Perm (members.under Endpoint.text)) ∧
    (view.egress = none ↔ ∀ e, members.get? e = none) ∧
    ∀ e, members.get? e =
      (g.network.egress.get? e).or (if e ∈ g.wiring.egressPorts then some .silent else none) := by
  intro g view members
  have filed : g.network.Filed := Filed.kept.run config ops
  refine ⟨fun plain => ⟨fun l l' hl htext => ?_, filed.perm_linksView plain g.wiring, fun l x hx => ?_⟩,
    fun e e' => Endpoint.text_inj, fun v => perm_egressView, egressView?_eq_none,
    g.network.get?_egressMembers g.wiring⟩
  · exact Link.text_inj htext (plain l hl)
  · have hplain : l.Plain := plain l (Table.contains_iff.mpr ⟨x, hx⟩)
    exact ⟨g.network.get?_linksView_plain g.wiring filed hx hplain, filed.keyed l x hx⟩

section Small

/-- Two links between switches with dashes and digits in their names. -/
def dashedLinks : List Link := [.between ⟨"a", 1⟩ ⟨"2-b", 3⟩, .between ⟨"a-1", 2⟩ ⟨"b", 3⟩]

/-- A stack of these links, with an egress of two members where one switch has the text of a port for its
name. -/
def dashedOps : List Operation :=
  [ .update 0 (.stage ⟨some "b", .ofList [("a-1", 2)], .ofList dashedLinks⟩),
    .heartbeat 0,
    .update 0 (.lag ⟨"b", 11⟩ (some .up) (some .selected)),
    .update 0 (.lag ⟨"b:1", 1⟩ (some .up) (some .standby)) ]

theorem run_listed_small :
    let g := ((fresh .usual).run dashedOps).1
    let view := g.network.dataplaneView g.wiring
    let members := g.network.egressMembers g.wiring
    g.network.links.keys = dashedLinks ∧ (∀ l, g.network.links.contains l = true → l.Plain) ∧
      view.links.toList.Perm (g.network.links.under Link.text) ∧
      members.keys = [⟨"b", 11⟩, ⟨"b:1", 1⟩] ∧
      ∃ v, view.egress = some v ∧ v.members.toList.Perm (members.under Endpoint.text) := by
  intro g view members
  have hlinks : g.network.links.keys = dashedLinks := by decide +kernel
  have hcolons : ∀ l ∈ dashedLinks, l.text.toList.count ':' = 2 := by decide +kernel
  have plain : ∀ l, g.network.links.contains l = true → l.Plain := by
    intro l hl
    rw [← Table.mem_keys, hlinks] at hl
    exact l.plain_iff.mpr (hcolons l hl)
  have hmembers : members.keys = [⟨"b", 11⟩, ⟨"b:1", 1⟩] := by decide +kernel
  have hegress : view.egress.isSome = true := by decide +kernel
  obtain ⟨v, hv⟩ := Option.isSome_iff_exists.mp hegress
  have h := run_listed .usual dashedOps
  exact ⟨hlinks, plain, (h.1 plain).2.1, hmembers, v, hv, h.2.2.1 v hv⟩

end Small
end Engine
end Fabric
