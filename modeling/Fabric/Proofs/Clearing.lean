import Fabric.Proofs.Learning

/-! A port that goes down. On an access port everybody who was there loses the switch, and nothing but
that, and each of them is told of in turn; of any other port, and of a report that is no news, the hosts
take no notice. Whom to forget is read off the port, and each is then looked up in the host table: that
nobody is missed, and that everybody is found on this very port, is what `Filed` is needed for. -/

namespace Fabric

open Network

/-- What is told when hosts leave an access port that went down. If there are none, nobody is named. -/
def departures (e : Endpoint) : List Mac → List Notice
  | [] => [.placement none e false]
  | macs => macs.map fun mac => .placement (some mac) e false

namespace Network

variable {n n' : Network} {w : Wiring} {now : Instant} {e : Endpoint} {mac m : Mac}

/-! ## Who is told of -/

theorem notices_forget (haccess : isAccess w e = true) (h : n.seenOn mac e.switch = some e.port) :
    (forget w mac e.switch n).notices = [.placement (some mac) e false] := by
  obtain ⟨x, hx, hport⟩ := Option.map_eq_some_iff.mp h
  have hplace : (⟨e.switch, x.port⟩ : Endpoint) = e := Endpoint.eq_iff.mpr ⟨rfl, hport⟩
  simp only [forget, hx, hplace, haccess, if_true]

theorem notices_forgetAll {macs : List Mac} (haccess : isAccess w e = true) (nodup : macs.Nodup)
    (h : ∀ mac ∈ macs, n.seenOn mac e.switch = some e.port) :
    (forgetAll w macs e.switch n).notices = macs.map fun mac => .placement (some mac) e false := by
  induction macs generalizing n with
  | nil => rfl
  | cons mac r ih =>
    obtain ⟨hmac, hr⟩ := List.nodup_cons.mp nodup
    -- the others are where they were when the first is gone
    have hrest : ∀ other ∈ r, (forget w mac e.switch n).network.seenOn other e.switch = some e.port := by
      intro other hother
      have hne : ¬ (other = mac ∧ e.switch = e.switch) := fun heq => hmac (heq.1 ▸ hother)
      rw [seenOn_forget, if_neg hne]
      exact h other (List.mem_cons_of_mem _ hother)
    have hfirst := notices_forget haccess (h mac List.mem_cons_self)
    rw [forgetAll, Outcome.forEach_cons]
    show (forget w mac e.switch n).notices ++ (forgetAll w r e.switch _).notices = _
    rw [hfirst, ih hr hrest]
    rfl

theorem Filed.notices_clearPort (h : n.Filed) (haccess : isAccess w e = true) :
    (Network.clearPort w e n).notices = departures e (n.macsAt e) := by
  have htold := notices_forgetAll haccess (nodup_macsAt n e) fun mac hmac => h.seenOn_macsAt hmac
  unfold Network.clearPort
  cases hlist : n.macsAt e with
  | nil => rfl
  | cons mac r =>
    rw [hlist] at htold
    exact htold

/-! ## Who is lost -/

/-- What becomes of hosts when everybody is lost who was on a port. -/
structure Emptied (e : Endpoint) (n n' : Network) : Prop where
  nobody : ∀ m, n'.seenOn m e.switch ≠ some e.port
  unlisted : n'.macsAt e = []
  /-- A host that was there has lost the switch and is seen by the others as it was. If there are none
  it is gone. -/
  lost : ∀ m ∈ n.macsAt e, n'.sighting? m e.switch = none ∧
    (∀ s, s ≠ e.switch → n'.sighting? m s = n.sighting? m s) ∧
    (n'.hosts.get? m = none ↔ ∀ s, s ≠ e.switch → n.sighting? m s = none)
  /-- What else is known of it stays, and so does all that is known of the others. -/
  hosts : ∀ m, n'.hosts.get? m =
    if m ∈ n.macsAt e then (n.hosts.get? m).bind (·.lostOn? e.switch) else n.hosts.get? m
  elsewhere : ∀ e', e' ≠ e → n'.macsAt e' = n.macsAt e'
  counted : n'.hostChanges = n.hostChanges + (n.macsAt e).length

theorem clearPort_network (w : Wiring) (e : Endpoint) (n : Network) :
    (clearPort w e n).network = (forgetAll w (n.macsAt e) e.switch n).network := by
  unfold clearPort
  cases n.macsAt e with
  | nil => rfl
  | cons => rfl

theorem Filed.emptied (h : n.Filed) (w : Wiring) (e : Endpoint) :
    Emptied e n (Network.clearPort w e n).network := by
  have hfiled : (Network.clearPort w e n).network.Filed := h.clearPort e
  rw [clearPort_network] at hfiled ⊢
  have hseen : ∀ m ∈ n.macsAt e, n.seenOn m e.switch ≠ none := fun m hm => by
    rw [h.seenOn_macsAt hm]
    exact Option.some_ne_none _
  have hhosts := get?_hosts_forgetAll (w := w) (nodup_macsAt n e) hseen
  have hnobody : ∀ m, (Network.forgetAll w (n.macsAt e) e.switch n).network.seenOn m e.switch ≠ some e.port := by
    intro m hon
    rw [seenOn_forgetAll] at hon
    split at hon
    · cases hon
    next hm =>
      -- whoever the host table has on the port is listed there
      exact hm ⟨mem_macsAt.mpr ((h.listed m e).mpr hon), rfl⟩
  refine
    { nobody := hnobody, unlisted := ?_, lost := fun m hm => ⟨?_, fun s hs => ?_, ?_⟩, hosts := hhosts
      elsewhere := fun e' he => ?_, counted := ?_ }
  · exact List.eq_nil_iff_forall_not_mem.mpr fun m hm => hnobody m (hfiled.seenOn_macsAt hm)
  · rw [sighting?_forgetAll, if_pos ⟨hm, rfl⟩]
  · rw [sighting?_forgetAll, if_neg fun hboth => hs hboth.2]
  · rw [hhosts, if_pos hm]
    exact lostOn?_eq_none m e.switch
  · rw [macsAt_eq n e']
    refine macsAt_ext fun m => ?_
    rw [mem_macsAt, hfiled.listed, seenOn_forgetAll, ← lists, h.listed]
    split
    next hm =>
      -- a host that was on the port was on no other port of the switch
      have hon := h.seenOn_macsAt hm.1
      rw [← hm.2] at hon
      rw [hon]
      refine iff_of_false (by simp) fun hp => he (Endpoint.eq_iff.mpr ⟨hm.2, (Option.some.inj hp).symm⟩)
    next => exact Iff.rfl
  · rw [(Moves.forgetAll (nodup_macsAt n e) hseen).counted, List.length_map]

/-! ## Reports of ports -/

theorem macsAt_noted (n : Network) (e e' : Endpoint) (up : Bool) :
    (n.updatePort e (notePort · now up)).macsAt e' = n.macsAt e' := by
  rw [macsAt_eq, macsAt_eq, portAt, port?_updatePort]
  split
  next he => rw [he]; rfl
  next => rfl

/-- What becomes of hosts when an access port goes down, and what is told of it. -/
structure Cleared (e : Endpoint) (n : Network) (o : Outcome) : Prop where
  down : o.network.upState? e = some false
  emptied : Emptied e n o.network
  ascending : (n.macsAt e).Pairwise fun a b => compare a b = .lt
  told : o.notices = .portState e false :: departures e (n.macsAt e)

/-- Hosts take no notice of what is reported of the port. -/
structure Unaffected (e : Endpoint) (up : Bool) (n : Network) (o : Outcome) : Prop where
  hosts : o.network.hosts = n.hosts
  macs : ∀ e', o.network.macsAt e' = n.macsAt e'
  counted : o.network.hostChanges = n.hostChanges
  told : o.notices = if n.upState? e = some up then [] else [.portState e up]

theorem portState_cleared (h : n.Filed) (haccess : isAccess w e = true) (hnews : n.upState? e ≠ some false) :
    Cleared e n (portState w now e false n) := by
  have hnoted : (n.updatePort e (notePort · now false)).Filed := h.updatePort e fun _ => rfl
  have hmacs (e' : Endpoint) (up : Bool) : (n.updatePort e (notePort · now up)).macsAt e' = n.macsAt e' :=
    macsAt_noted n e e' up
  have hemptied := hnoted.emptied w e
  have htold := hnoted.notices_clearPort haccess
  have hout : portState w now e false n = Outcome.andThen
      ⟨n.updatePort e (notePort · now false), [.portState e false]⟩ (Network.clearPort w e) := by
    rw [portState_news (mt any_up_iff.mp hnews)]
    simp [haccess]
  refine ⟨?_, ?_, ?_, ?_⟩
  · rw [upState?_portState, if_pos rfl]
  · rw [hout, Outcome.andThen_network]
    exact
      { nobody := hemptied.nobody
        unlisted := hemptied.unlisted
        lost := hmacs e false ▸ hemptied.lost
        hosts := hmacs e false ▸ hemptied.hosts
        elsewhere := fun e' he => (hemptied.elsewhere e' he).trans (hmacs e' false)
        counted := hmacs e false ▸ hemptied.counted }
  · rw [macsAt_eq]
    exact List.pairwise_map.mpr (n.portAt e).macs.ascending
  · rw [hout, ← hmacs e false, ← htold]
    rfl

theorem portState_unaffected {up : Bool} (h : up = true ∨ isAccess w e = false ∨ n.upState? e = some up) :
    Unaffected e up n (portState w now e up n) := by
  by_cases hsame : n.upState? e = some up
  · rw [portState_same (any_up_iff.mpr hsame)]
    exact ⟨rfl, fun _ => rfl, rfl, (if_pos hsame).symm⟩
  · have hkept : (!up && isAccess w e) = false := by
      rcases h with rfl | haccess | hagain
      · rfl
      · rw [haccess, Bool.and_false]
      · exact absurd hagain hsame
    rw [portState_news (mt any_up_iff.mp hsame), hkept]
    exact ⟨rfl, fun e' => macsAt_noted n e e' up, rfl, (if_neg hsame).symm⟩

end Network

namespace Engine

/-- At any time, when an access port is reported down that was not down already, everybody who was there
is lost there and nothing else becomes of any host, and each is told of in ascending order (`Cleared`).
Any other report of a port leaves all hosts as they were. -/
theorem run_cleared (config : EngineConfig) (ops : List Operation) (now : Instant) (e : Endpoint) :
    let g := ((fresh config).run ops).1
    let reported (up : Bool) : Outcome :=
      ⟨(g.update now (.portState e up)).1.network, (g.update now (.portState e up)).2⟩
    (isAccess g.wiring e = true → g.network.upState? e ≠ some false →
      Cleared e g.network (reported false)) ∧
    ∀ up, up = true ∨ isAccess g.wiring e = false ∨ g.network.upState? e = some up →
      Unaffected e up g.network (reported up) := by
  intro g reported
  have hfiled : g.network.Filed := Filed.kept.run config ops
  have hreported (up : Bool) : reported up = Network.portState g.wiring now e up g.network := by
    show Outcome.forEach [.portState e up] (Update.apply g.config g.wiring now) g.network = _
    rw [Outcome.forEach_singleton]
    rfl
  refine ⟨fun haccess hnews => ?_, fun up hup => ?_⟩
  · rw [hreported]
    exact portState_cleared hfiled haccess hnews
  · rw [hreported]
    exact portState_unaffected hup

section Small

/-- A host is learned on the port, and on another switch, and then the port goes down. -/
def deskDown : List Operation :=
  [.configure 0 deskWiring, .update 1 (.portState desk true),
    .update 2 (.learn desk ⟨"0e:00:00:00:00:0a"⟩ ⟨some "10.0.0.1", some 100⟩),
    .update 3 (.learn ⟨"sw2", 7⟩ ⟨"0e:00:00:00:00:0a"⟩ ⟨none, none⟩)]

theorem run_cleared_small :
    let g := ((fresh .usual).run deskDown).1
    isAccess g.wiring desk = true ∧ g.network.upState? desk ≠ some false ∧
      g.network.macsAt desk = [⟨"0e:00:00:00:00:0a"⟩] ∧
      Cleared desk g.network ⟨(g.update 4 (.portState desk false)).1.network,
        (g.update 4 (.portState desk false)).2⟩ := by
  intro g
  have haccess : isAccess g.wiring desk = true := by decide +kernel
  have hup : g.network.upState? desk ≠ some false := by decide +kernel
  have hthere : g.network.macsAt desk = [⟨"0e:00:00:00:00:0a"⟩] := by decide +kernel
  exact ⟨haccess, hup, hthere, (run_cleared .usual deskDown 4 desk).1 haccess hup⟩

end Small

end Engine
end Fabric
