import Mathlib.Logic.Relation
import Fabric.Topology
import Fabric.Proofs.Climb
import Fabric.Proofs.Labels

/-! Announcements that say the same. A topology can be announced in many ways: the links in any order
and as often as one likes, each from either end, with any key and any label that ends in the number of
the port, together with links that say nothing and switches without a root hop port (`Reworded`).
Nothing else is lost on the way to a topology: two announcements come to the same topology exactly when
one is reworded into the other (`alike_iff`). -/

namespace Fabric

open Fabric.Text Relation

namespace AnnouncedLink

/-- The same link, named from its other end. -/
def turned (l : AnnouncedLink) : AnnouncedLink := ⟨l.key, l.switchZ, l.portZ, l.switchA, l.portA⟩

/-- A link with a port that has no number says nothing. -/
def Unread (l : AnnouncedLink) : Prop :=
  (∀ port, ¬ Names l.portA port) ∨ ∀ port, ¬ Names l.portZ port

/-- Another way to announce a link. -/
inductive Respelled : AnnouncedLink → AnnouncedLink → Prop where
  | turn (l : AnnouncedLink) : Respelled l l.turned
  | key (l : AnnouncedLink) (key : Option String) : Respelled l { l with key }
  | label (l : AnnouncedLink) {port : UInt32} {portA : String} :
      Names l.portA port → Names portA port → Respelled l { l with portA }

end AnnouncedLink

/-- A switch without a root hop port: there is no entry, or no port in it, or port 0. -/
def Hopless (entry : Option (Option UInt32)) : Prop := ∀ port, entry = some (some port) → port = 0

namespace Announcement

def withLinks (a : Announcement) (links : List AnnouncedLink) : Announcement := { a with links }

/-- Another way to announce a topology. -/
inductive Reworded : Announcement → Announcement → Prop where
  | order (a : Announcement) {links : List AnnouncedLink} :
      a.links.Perm links → Reworded a (a.withLinks links)
  | again (a : Announcement) {l : AnnouncedLink} : l ∈ a.links → Reworded a (a.withLinks (l :: a.links))
  | unread (a : Announcement) {l : AnnouncedLink} : l.Unread → Reworded a (a.withLinks (l :: a.links))
  | respelled (a : Announcement) {l l' : AnnouncedLink} (before after : List AnnouncedLink) :
      AnnouncedLink.Respelled l l' →
        Reworded (a.withLinks (before ++ l :: after)) (a.withLinks (before ++ l' :: after))
  | hops (a : Announcement) {rootHops : Table String (Option UInt32)} :
      (∀ s, rootHops.get? s = a.rootHops.get? s ∨ (Hopless (rootHops.get? s) ∧ Hopless (a.rootHops.get? s))) →
        Reworded a { a with rootHops }

/-- Reworded any number of times, there and back. -/
def Alike : Announcement → Announcement → Prop := EqvGen Reworded

end Announcement

/-! ## The topology of an announcement -/

theorem Link.between_comm (x y : Endpoint) : between x y = between y x := by
  by_cases h : compare x y = .gt
  · have hxy : between x y = ⟨y, x, by simp [Std.OrientedCmp.gt_iff_lt.mp h]⟩ := dif_pos h
    rw [hxy]
    exact (between_a_b _).symm
  · have hxy : between x y = ⟨x, y, h⟩ := dif_neg h
    rw [hxy]
    exact (between_b_a _).symm

namespace AnnouncedLink

theorem link?_eq_some {l : AnnouncedLink} {k : Link} : l.link? = some k ↔
    ∃ p q, Names l.portA p ∧ Names l.portZ q ∧ k = .between ⟨l.switchA, p⟩ ⟨l.switchZ, q⟩ := by
  simp only [link?, Option.bind_eq_bind, Option.bind_eq_some_iff, portNumber?_eq_some, Option.some.injEq]
  constructor
  · rintro ⟨p, hp, q, hq, rfl⟩
    exact ⟨p, q, hp, hq, rfl⟩
  · rintro ⟨p, q, hp, hq, rfl⟩
    exact ⟨p, hp, q, hq, rfl⟩

theorem link?_eq_none {l : AnnouncedLink} : l.link? = none ↔ l.Unread := by
  simp only [link?, Option.bind_eq_bind, Unread, ← portNumber?_eq_none]
  cases portNumber? l.portA <;> cases portNumber? l.portZ <;> simp

theorem Respelled.link? {l l' : AnnouncedLink} (h : Respelled l l') : l'.link? = l.link? := by
  cases h with
  | turn =>
    simp only [AnnouncedLink.link?, turned]
    cases portNumber? l.portA <;> cases portNumber? l.portZ <;> simp [Link.between_comm]
  | key => rfl
  | label hold hnew =>
    simp only [AnnouncedLink.link?]
    rw [portNumber?_eq_some.mpr hold, portNumber?_eq_some.mpr hnew]

end AnnouncedLink

namespace Announcement

theorem contains_links {a : Announcement} {k : Link} :
    a.topology.links.contains k = true ↔ ∃ l ∈ a.links, l.link? = some k := by
  simp [topology]

theorem get?_rootHops {a : Announcement} {s : String} {p : UInt32} :
    a.topology.rootHops.get? s = some p ↔ a.rootHops.get? s = some (some p) ∧ p ≠ 0 := by
  refine (Table.get?_ofList_filterMap ?_).trans ?_
  · intro s x e he
    obtain ⟨q, -, rfl⟩ := Option.map_eq_some_iff.mp he
    rfl
  · simp only [Option.map_eq_some_iff, Option.filter_eq_some_iff, Prod.mk.injEq, true_and,
      exists_eq_right, decide_eq_true_eq]
    constructor
    · rintro ⟨x, hx, rfl, hne⟩
      exact ⟨hx, hne⟩
    · rintro ⟨hx, hne⟩
      exact ⟨some p, hx, rfl, hne⟩

/-- A topology is its root, its root hop ports and its links. -/
theorem topology_congr {a b : Announcement} (hroot : a.root = b.root)
    (hhops : ∀ s p, p ≠ 0 → (a.rootHops.get? s = some (some p) ↔ b.rootHops.get? s = some (some p)))
    (hlinks : ∀ k, (∃ l ∈ a.links, l.link? = some k) ↔ ∃ l ∈ b.links, l.link? = some k) :
    a.topology = b.topology := by
  have hhops : a.topology.rootHops = b.topology.rootHops := Table.ext_get? fun s => by
    ext p
    rw [get?_rootHops, get?_rootHops]
    exact and_congr_left fun hne => hhops s p hne
  have hlinks : a.topology.links = b.topology.links := KeySet.ext_contains fun k => by
    rw [contains_links, contains_links]
    exact hlinks k
  have hroot : a.topology.root = b.topology.root := by simp [topology, hroot]
  calc a.topology = ⟨a.topology.root, a.topology.rootHops, a.topology.links⟩ := rfl
    _ = b.topology := by rw [hroot, hhops, hlinks]

theorem Reworded.topology_eq {a b : Announcement} (h : Reworded a b) : a.topology = b.topology := by
  cases h with
  | order _ hperm => exact topology_congr rfl (fun _ _ _ => Iff.rfl) fun k => by simp [withLinks, hperm.mem_iff]
  | again _ hmem =>
    refine topology_congr rfl (fun _ _ _ => Iff.rfl) fun k => ⟨?_, ?_⟩
    · rintro ⟨l, hl, hk⟩
      exact ⟨l, List.mem_cons_of_mem _ hl, hk⟩
    · rintro ⟨l, hl, hk⟩
      rcases List.mem_cons.mp hl with rfl | hl
      · exact ⟨l, hmem, hk⟩
      · exact ⟨l, hl, hk⟩
  | unread _ hunread =>
    refine topology_congr rfl (fun _ _ _ => Iff.rfl) fun k => ?_
    simp [withLinks, AnnouncedLink.link?_eq_none.mpr hunread]
  | respelled _ before after hspelled =>
    refine topology_congr rfl (fun _ _ _ => Iff.rfl) fun k => ?_
    simp [withLinks, or_and_right, exists_or, hspelled.link?]
  | hops _ hhops =>
    refine topology_congr rfl (fun s p hne => ?_) fun _ => Iff.rfl
    rcases hhops s with hsame | ⟨hb, ha⟩
    · exact (iff_of_eq (congrArg (· = some (some p)) hsame)).symm
    · exact iff_of_false (fun h => hne (ha p h)) fun h => hne (hb p h)

theorem Alike.topology_eq {a b : Announcement} (h : Alike a b) : a.topology = b.topology := by
  induction h with
  | rel _ _ h => exact h.topology_eq
  | refl => rfl
  | symm _ _ _ ih => exact ih.symm
  | trans _ _ _ _ _ ih ih' => exact ih.trans ih'

/-! ## The plain announcement of a topology -/

namespace Alike

variable {a b c : Announcement} {links links' : List AnnouncedLink}

theorem refl (a : Announcement) : Alike a a := EqvGen.refl a

theorem symm (h : Alike a b) : Alike b a := EqvGen.symm _ _ h

theorem trans (h : Alike a b) (h' : Alike b c) : Alike a c := EqvGen.trans _ _ _ h h'

theorem of_perm (a : Announcement) (h : links.Perm links') : Alike (a.withLinks links) (a.withLinks links') :=
  .rel _ _ (.order (a.withLinks links) h)

/-- Links that are announced already may be announced again. -/
theorem repeated (a : Announcement) (h : links' ⊆ links) :
    Alike (a.withLinks links) (a.withLinks (links' ++ links)) := by
  induction links' with
  | nil => exact refl _
  | cons l r ih =>
    obtain ⟨hl, hr⟩ := List.cons_subset.mp h
    exact (ih hr).trans (.rel _ _ (.again (a.withLinks (r ++ links)) (List.mem_append_right r hl)))

/-- Only which links are announced counts. -/
theorem of_mem_iff (a : Announcement) (h : ∀ l, l ∈ links ↔ l ∈ links') :
    Alike (a.withLinks links) (a.withLinks links') := by
  have hthere := repeated a fun l hl => (h l).mpr hl
  have hback := repeated a fun l hl => (h l).mp hl
  exact (hthere.trans (of_perm a List.perm_append_comm)).trans hback.symm

theorem of_respelled (a : Announcement) {l l' : AnnouncedLink} (before after : List AnnouncedLink)
    (h : EqvGen AnnouncedLink.Respelled l l') :
    Alike (a.withLinks (before ++ l :: after)) (a.withLinks (before ++ l' :: after)) := by
  induction h with
  | rel _ _ h => exact .rel _ _ (.respelled a before after h)
  | refl => exact refl _
  | symm _ _ _ ih => exact ih.symm
  | trans _ _ _ _ _ ih ih' => exact ih.trans ih'

theorem of_unread (a : Announcement) {l : AnnouncedLink} (before after : List AnnouncedLink) (h : l.Unread) :
    Alike (a.withLinks (before ++ l :: after)) (a.withLinks (before ++ after)) :=
  (of_perm a List.perm_middle).trans (symm (.rel _ _ (.unread (a.withLinks (before ++ after)) h)))

end Alike
end Announcement

/-- The link with bare numbers, from its first end. -/
def Link.announced (k : Link) : AnnouncedLink :=
  ⟨none, k.a.switch, numeral k.a.port.toNat, k.b.switch, numeral k.b.port.toNat⟩

theorem AnnouncedLink.respelled_announced {l : AnnouncedLink} {k : Link} (h : l.link? = some k) :
    EqvGen Respelled l k.announced := by
  obtain ⟨p, q, hp, hq, rfl⟩ := link?_eq_some.mp h
  have hkey : EqvGen Respelled l ⟨none, l.switchA, l.portA, l.switchZ, l.portZ⟩ := .rel _ _ (.key l none)
  have hport : EqvGen Respelled _ ⟨none, l.switchA, numeral p.toNat, l.switchZ, l.portZ⟩ :=
    hkey.trans _ _ _ (.rel _ _ (.label _ hp (names_numeral p)))
  have hturned : EqvGen Respelled _ ⟨none, l.switchZ, l.portZ, l.switchA, numeral p.toNat⟩ :=
    hport.trans _ _ _ (.rel _ _ (.turn _))
  have hboth : EqvGen Respelled _ ⟨none, l.switchZ, numeral q.toNat, l.switchA, numeral p.toNat⟩ :=
    hturned.trans _ _ _ (.rel _ _ (.label _ hq (names_numeral q)))
  unfold Link.between
  split
  · exact hboth
  · exact hboth.trans _ _ _ (.rel _ _ (.turn _))

namespace Announcement

/-- A topology announced with each link once and no switch without a root hop port. -/
def plain (root : String) (t : Topology) : Announcement :=
  ⟨root, t.links.keys.map Link.announced, t.rootHops.map fun _ port => some port⟩

theorem alike_announced (a : Announcement) (before links : List AnnouncedLink) :
    Alike (a.withLinks (before ++ links))
      (a.withLinks (before ++ (links.filterMap (·.link?)).map Link.announced)) := by
  induction links generalizing before with
  | nil => exact .refl _
  | cons l r ih =>
    cases hl : l.link? with
    | none =>
      rw [List.filterMap_cons_none hl]
      exact (Alike.of_unread a before r (AnnouncedLink.link?_eq_none.mp hl)).trans (ih before)
    | some k =>
      have hrest := ih (before ++ [k.announced])
      rw [List.append_assoc, List.append_assoc] at hrest
      rw [List.filterMap_cons_some hl, List.map_cons]
      exact (Alike.of_respelled a before r (AnnouncedLink.respelled_announced hl)).trans hrest

theorem alike_plain (a : Announcement) : Alike a (plain a.root a.topology) := by
  have hread : Alike a (a.withLinks ((a.links.filterMap (·.link?)).map Link.announced)) :=
    a.alike_announced [] a.links
  have hlinks : Alike (a.withLinks ((a.links.filterMap (·.link?)).map Link.announced))
      (a.withLinks (a.topology.links.keys.map Link.announced)) := by
    refine Alike.of_mem_iff a fun l => ?_
    simp [Table.mem_keys, contains_links]
  have hhops : Alike (a.withLinks (a.topology.links.keys.map Link.announced)) (plain a.root a.topology) := by
    refine .rel _ _ (.hops _ fun s => ?_)
    cases hs : a.topology.rootHops.get? s with
    | some p => exact .inl (by simp [withLinks, hs, (get?_rootHops.mp hs).1])
    | none =>
      refine .inr ⟨by simp [Hopless, hs], fun p hp => ?_⟩
      by_contra hne
      have hport : a.topology.rootHops.get? s = some p := get?_rootHops.mpr ⟨hp, hne⟩
      rw [hport] at hs
      cases hs
  exact (hread.trans hlinks).trans hhops

theorem root_of_topology {a b : Announcement} (h : a.topology = b.topology) : a.root = b.root := by
  have hroot : (if a.root = "" then none else some a.root) = if b.root = "" then none else some b.root :=
    congrArg Topology.root h
  split at hroot <;> split at hroot <;> simp_all

theorem alike_iff {a b : Announcement} : Alike a b ↔ a.topology = b.topology := by
  refine ⟨Alike.topology_eq, fun h => ?_⟩
  have hb := b.alike_plain
  rw [← h, ← root_of_topology h] at hb
  exact a.alike_plain.trans hb.symm

end Announcement
end Fabric
