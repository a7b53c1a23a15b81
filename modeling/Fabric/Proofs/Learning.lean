import Fabric.Proofs.Moves

/-! What learning a host does. The host is on the port, and if it is an access port everybody else
who was there has lost that switch, and nothing but that. Of the two tables the host table
carries the argument: what is known of it after the displacements and the record is a closed form
(`sighting?_learn`, `get?_hosts_learn`), and the ports list what it says (`Filed`). It is only in learns
that a host turns up where it was not (`Fewer`), so under one and the same configuration of the
switches no access port ever has two. -/

namespace Fabric

open Network

/-- The host without what one switch saw of it, unless that was all. -/
def Host.lostOn? (h : Host) (switch : String) : Option Host :=
  let rest := h.sightings.erase switch
  if rest.isEmpty then none else some { h with sightings := rest }

namespace Network

variable {n n' : Network} {w : Wiring} {now : Instant} {e : Endpoint} {mac m : Mac} {t : Traits}

/-! ## Who is displaced -/

/-- The hosts that have to go from an access port when another one is learned there. -/
def displaced (n : Network) (w : Wiring) (e : Endpoint) (mac : Mac) : List Mac :=
  if isAccess w e then (n.macsAt e).filter (· ≠ mac) else []

theorem mem_displaced : m ∈ n.displaced w e mac ↔ isAccess w e = true ∧ m ∈ n.macsAt e ∧ m ≠ mac := by
  unfold displaced
  split <;> simp_all

theorem nodup_displaced : (n.displaced w e mac).Nodup := by
  unfold displaced
  split
  · exact (nodup_macsAt n e).filter _
  · exact .nil

theorem Filed.seenOn_displaced (h : n.Filed) (hm : m ∈ n.displaced w e mac) :
    n.seenOn m e.switch = some e.port := h.seenOn_macsAt (mem_displaced.mp hm).2.1

theorem Filed.displaced_seen (h : n.Filed) : ∀ m ∈ n.displaced w e mac, n.seenOn m e.switch ≠ none := by
  intro m hm
  rw [h.seenOn_displaced hm]
  exact Option.some_ne_none _

theorem learn_network (n : Network) (e : Endpoint) (mac : Mac) (t : Traits) :
    (learn w now e mac t n).network =
      (record w now e mac t (forgetAll w (n.displaced w e mac) e.switch n).network).network := rfl

/-! ## The host table -/

theorem get?_withoutSighting (hosts : Table Mac Host) (mac m : Mac) (switch : String) :
    (withoutSighting hosts mac switch).get? m =
      if m = mac then (hosts.get? m).bind (·.lostOn? switch) else hosts.get? m := by
  unfold withoutSighting
  cases hmac : hosts.get? mac with
  | none =>
    by_cases h : m = mac
    · simp [h, hmac]
    · simp [h]
  | some h =>
    by_cases hm : m = mac
    · subst hm
      simp only [hmac, Option.bind_some, Host.lostOn?]
      split <;> simp
    · dsimp only
      split <;> simp [hm]

theorem get?_hosts_forgetAll {macs : List Mac} {switch : String} (nodup : macs.Nodup)
    (h : ∀ mac ∈ macs, n.seenOn mac switch ≠ none) (m : Mac) :
    (forgetAll w macs switch n).network.hosts.get? m =
      if m ∈ macs then (n.hosts.get? m).bind (·.lostOn? switch) else n.hosts.get? m := by
  induction macs generalizing n with
  | nil => rfl
  | cons mac r ih =>
    obtain ⟨hmac, hr⟩ := List.nodup_cons.mp nodup
    have hrest : ∀ other ∈ r, (forget w mac switch n).network.seenOn other switch ≠ none := by
      intro other hother
      have hne : ¬ (other = mac ∧ switch = switch) := fun heq => hmac (heq.1 ▸ hother)
      rw [seenOn_forget, if_neg hne]
      exact h other (List.mem_cons_of_mem _ hother)
    have hfirst : (forget w mac switch n).network.hosts.get? m =
        if m = mac then (n.hosts.get? m).bind (·.lostOn? switch) else n.hosts.get? m := by
      obtain ⟨x, hx⟩ : ∃ x, n.sighting? mac switch = some x :=
        Option.ne_none_iff_exists'.mp fun hnone => h mac List.mem_cons_self (by rw [seenOn, hnone]; rfl)
      rw [forget_some hx]
      exact get?_withoutSighting n.hosts mac m switch
    rw [forgetAll, Outcome.forEach_cons, Outcome.andThen_network]
    refine (ih hr hrest).trans ?_
    rw [hfirst]
    by_cases hm : m = mac
    · subst hm
      simp [hmac]
    · simp [hm]

theorem sighting?_learn (n : Network) (e : Endpoint) (mac m : Mac) (t : Traits) (s : String) :
    (learn w now e mac t n).network.sighting? m s =
      if m = mac ∧ s = e.switch then some ⟨e.port, now⟩
      else if m ∈ n.displaced w e mac ∧ s = e.switch then none
      else n.sighting? m s := by
  rw [learn_network, sighting?_record, sighting?_forgetAll]

theorem seenOn_learn (n : Network) (e : Endpoint) (mac m : Mac) (t : Traits) (s : String) :
    (learn w now e mac t n).network.seenOn m s =
      if m = mac ∧ s = e.switch then some e.port
      else if m ∈ n.displaced w e mac ∧ s = e.switch then none
      else n.seenOn m s := by
  rw [seenOn, sighting?_learn]
  split
  · rfl
  · split <;> rfl

theorem Filed.get?_hosts_learn (h : n.Filed) (e : Endpoint) (t : Traits) (hm : m ≠ mac) :
    (Network.learn w now e mac t n).network.hosts.get? m =
      if m ∈ n.displaced w e mac then (n.hosts.get? m).bind (·.lostOn? e.switch) else n.hosts.get? m := by
  rw [learn_network]
  show (Table.insert _ mac _).get? m = _
  rw [Table.get?_insert, if_neg hm, get?_hosts_forgetAll nodup_displaced h.displaced_seen]

/-- A host is gone if and only if no other switch sees it. -/
theorem lostOn?_eq_none (m : Mac) (switch : String) :
    (n.hosts.get? m).bind (·.lostOn? switch) = none ↔ ∀ s, s ≠ switch → n.sighting? m s = none := by
  unfold sighting?
  cases n.hosts.get? m with
  | none => simp
  | some x =>
    have hrest : x.lostOn? switch = none ↔ (x.sightings.erase switch).isEmpty = true := by simp [Host.lostOn?]
    simp only [Option.bind_some, hrest, Table.isEmpty_iff, Table.get?_erase]
    exact forall_congr' fun s => by by_cases hs : s = switch <;> simp [hs]

/-! ## The ports -/

theorem macsAt_eq (n : Network) (e : Endpoint) : n.macsAt e = (n.portAt e).macs.keys := by
  unfold macsAt portAt
  cases n.port? e <;> rfl

/-- A port lists hosts in order, so it is enough to know which they are. -/
theorem macsAt_ext {s : KeySet Mac} (h : ∀ mac, mac ∈ n.macsAt e ↔ s.contains mac = true) :
    n.macsAt e = s.keys := by
  rw [macsAt_eq, KeySet.ext_contains fun mac => mem_macsAt.symm.trans (h mac)]

theorem Filed.mem_macsAt_learn (h : n.Filed) (e e' : Endpoint) (mac m : Mac) (t : Traits) :
    m ∈ (Network.learn w now e mac t n).network.macsAt e' ↔
      if m = mac ∧ e'.switch = e.switch then e'.port = e.port
      else ¬ (m ∈ n.displaced w e mac ∧ e'.switch = e.switch) ∧ m ∈ n.macsAt e' := by
  rw [mem_macsAt, (h.learn e mac t).listed, seenOn_learn, mem_macsAt, h.listed]
  split
  · simp [eq_comm]
  · split <;> simp_all

/-! ## The effect -/

/-- What becomes of a network when a host is learned, and all that becomes of hosts and of what the ports
list. -/
structure Learned (w : Wiring) (now : Instant) (e : Endpoint) (mac : Mac) (n n' : Network) : Prop where
  seen : n'.sighting? mac e.switch = some ⟨e.port, now⟩
  alone : isAccess w e = true → n'.macsAt e = [mac]
  /-- A host that was there has lost the switch, and is gone if no other one sees it. -/
  lost : ∀ m ∈ n.displaced w e mac, n'.sighting? m e.switch = none ∧
    (n'.hosts.get? m = none ↔ ∀ s, s ≠ e.switch → n.sighting? m s = none)
  /-- Nothing else that a switch knows of a host changes. -/
  others : ∀ m s, ¬ (m = mac ∧ s = e.switch) → ¬ (m ∈ n.displaced w e mac ∧ s = e.switch) →
    n'.sighting? m s = n.sighting? m s
  /-- Nor does what is attached to the other hosts. -/
  hosts : ∀ m, m ≠ mac → n'.hosts.get? m =
    if m ∈ n.displaced w e mac then (n.hosts.get? m).bind (·.lostOn? e.switch) else n.hosts.get? m
  /-- A port that is none of access lists the host beside the others. -/
  beside : isAccess w e = false → ∀ m, m ∈ n'.macsAt e ↔ m = mac ∨ m ∈ n.macsAt e
  /-- The port that the host was on before lists it no longer. -/
  left : ∀ p, n.leftPort e mac = some p →
    ∀ m, m ∈ n'.macsAt ⟨e.switch, p⟩ ↔ m ≠ mac ∧ m ∈ n.macsAt ⟨e.switch, p⟩
  ports : ∀ e', e' ≠ e → ¬ (e'.switch = e.switch ∧ n.leftPort e mac = some e'.port) →
    n'.macsAt e' = n.macsAt e'
  counted : n'.hostChanges = n.hostChanges + (n.displaced w e mac).length +
    if n.seenOn mac e.switch = some e.port then 0 else 1
  /-- Switches, ports, links, egress members and VLANs are as they were. -/
  quiet : Quiet n n'

theorem not_displaced_self (n : Network) (w : Wiring) (e : Endpoint) (mac : Mac) : mac ∉ n.displaced w e mac :=
  fun h => (mem_displaced.mp h).2.2 rfl

theorem Filed.hostChanges_learn (h : n.Filed) (e : Endpoint) (mac : Mac) (t : Traits) :
    (Network.learn w now e mac t n).network.hostChanges = n.hostChanges + (n.displaced w e mac).length +
      if n.seenOn mac e.switch = some e.port then 0 else 1 := by
  have hseen : ∀ m ∈ n.displaced w e mac, n.seenOn m e.switch ≠ none := h.displaced_seen
  have hlost := (Moves.forgetAll (w := w) nodup_displaced hseen).counted
  have hfound : Moves (Network.forgetAll w (n.displaced w e mac) e.switch n).network
      (Network.record w now e mac t (Network.forgetAll w (n.displaced w e mac) e.switch n).network).network _ :=
    Moves.record e mac t
  have hsame : (Network.forgetAll w (n.displaced w e mac) e.switch n).network.seenOn mac e.switch =
      n.seenOn mac e.switch := by
    rw [seenOn_forgetAll, if_neg fun hm => not_displaced_self n w e mac hm.1]
  rw [learn_network, hfound.counted, hlost, hsame, List.length_map]
  split <;> rfl

theorem learn_learned (h : n.Filed) (e : Endpoint) (mac : Mac) (t : Traits) :
    Learned w now e mac n (learn w now e mac t n).network where
  seen := by simp [sighting?_learn]
  alone haccess := by
    refine macsAt_ext (s := KeySet.ofList [mac]) fun m => ?_
    rw [h.mem_macsAt_learn, KeySet.contains_ofList]
    by_cases hm : m = mac
    · simp [hm]
    · simp [hm, mem_displaced, haccess]
  lost m hm := by
    have hne : m ≠ mac := (mem_displaced.mp hm).2.2
    refine ⟨by simp [sighting?_learn, hne, hm], ?_⟩
    rw [h.get?_hosts_learn e t hne, if_pos hm]
    exact lostOn?_eq_none m e.switch
  others m s hnew hlost := by rw [sighting?_learn, if_neg hnew, if_neg hlost]
  hosts m hm := h.get?_hosts_learn e t hm
  beside haccess m := by
    rw [h.mem_macsAt_learn]
    by_cases hm : m = mac <;> simp [hm, mem_displaced, haccess]
  left p hp m := by
    have hne : p ≠ e.port := fun heq => leftPort_ne n e mac (heq ▸ hp)
    rw [h.mem_macsAt_learn]
    by_cases hm : m = mac
    · simp [hm, hne]
    · have hkept : ¬ (m ∈ n.displaced w e mac ∧ m ∈ n.macsAt ⟨e.switch, p⟩) := fun hboth =>
        hne (h.once hboth.2 (mem_displaced.mp hboth.1).2.1)
      simp only [hm, if_false, and_true, ne_eq, not_false_eq_true, true_and]
      exact and_iff_right_of_imp fun hat hdisplaced => hkept ⟨hdisplaced, hat⟩
  ports e' hne hleft := by
    rw [macsAt_eq n e']
    refine macsAt_ext fun m => ?_
    rw [h.mem_macsAt_learn, show (n.portAt e').macs.contains m = n.lists e' m from rfl, ← mem_macsAt]
    by_cases hs : e'.switch = e.switch
    · have hport : e'.port ≠ e.port := fun hp => hne (Endpoint.eq_iff.mpr ⟨hs, hp⟩)
      by_cases hm : m = mac
      · -- the host was on the port only if it is the one that it left
        subst hm
        have hnot : m ∉ n.macsAt e' := by
          intro hmem
          have hon := h.seenOn_macsAt hmem
          rw [hs] at hon
          exact hleft ⟨hs, Option.filter_eq_some_iff.mpr ⟨hon, by simpa using hport⟩⟩
        simp [hs, hport, hnot]
      · have hkept : m ∈ n.macsAt e' → m ∉ n.displaced w e mac := by
          intro hmem hdisplaced
          have hon := h.seenOn_displaced hdisplaced
          rw [← hs, h.seenOn_macsAt hmem] at hon
          exact hport (Option.some.inj hon)
        simp only [hm, if_false, hs, and_true]
        exact and_iff_right_of_imp hkept
    · simp [hs]
  counted := h.hostChanges_learn e mac t
  quiet := quiet_learn n e mac t

/-! ## One host at a time -/

/-- No host is anywhere where it was not before. -/
def Fewer (n n' : Network) : Prop := ∀ m s p, n'.seenOn m s = some p → n.seenOn m s = some p

theorem Fewer.trans {n'' : Network} (h : Fewer n n') (h' : Fewer n' n'') : Fewer n n'' :=
  fun m s p hp => h m s p (h' m s p hp)

theorem fewer_of_eq (h : ∀ m s, n'.seenOn m s = n.seenOn m s) : Fewer n n' := fun m s _ hp => h m s ▸ hp

theorem fewer_forgetAll (macs : List Mac) (switch : String) (n : Network) :
    Fewer n (forgetAll w macs switch n).network := by
  intro m s p hp
  rw [seenOn_forgetAll] at hp
  split at hp
  · cases hp
  · exact hp

theorem fewer_refreshLinks (n : Network) (w : Wiring) (now : Instant) : Fewer n (n.refreshLinks w now) := by
  rw [refreshLinks_eq]
  exact fewer_of_eq fun _ _ => rfl

theorem fewer_heartbeat (n : Network) (w : Wiring) (window : Nat) (now : Instant) :
    Fewer n (n.heartbeat w window now).1 := by
  rcases heartbeat_cases n w window now with heq | heq | ⟨status, heq⟩
  all_goals rw [heq]
  · exact fewer_of_eq fun _ _ => rfl
  · exact fewer_of_eq fun _ _ => rfl
  · exact (fewer_of_eq fun _ _ => rfl : Fewer n { n with topology := status }).trans
      (fewer_refreshLinks _ w now)

theorem fewer_portState (e : Endpoint) (up : Bool) (n : Network) :
    Fewer n (portState w now e up n).network := by
  by_cases hs : (n.port? e).any (·.up = some up) = true
  · rw [portState_same hs]
    exact fewer_of_eq fun _ _ => rfl
  · have hnote : Fewer n (n.updatePort e (notePort · now up)) := fewer_of_eq fun _ _ => rfl
    rw [portState_news hs, Outcome.andThen_network]
    dsimp only
    split
    · refine hnote.trans ?_
      unfold clearPort
      split
      · exact fewer_of_eq fun _ _ => rfl
      · exact fewer_forgetAll _ _ _
    · exact hnote

end Network

def Update.isLearn : Update → Bool
  | .learn .. => true
  | _ => false

namespace Network

variable {n n' : Network} {w : Wiring} {now : Instant}

theorem fewer_update (config : EngineConfig) {u : Update} (hu : u.isLearn = false) (n : Network) :
    Fewer n (u.apply config w now n).network := by
  cases u with
  | learn => cases hu
  | portState e up => exact fewer_portState e up n
  | expire e mac =>
    show Fewer n (expire w e mac n).network
    unfold expire
    split
    · have hlost := fewer_forgetAll (w := w) [mac] e.switch n
      rwa [forgetAll, Outcome.forEach_singleton] at hlost
    · exact fewer_of_eq fun _ _ => rfl
  | stackState e code =>
    show Fewer n (stackState w now e code n)
    rcases stackState_cases w now e code n with heq | ⟨s, heq⟩
    · rw [heq]
      exact fewer_of_eq fun _ _ => rfl
    · have hnote : Fewer n (n.updatePort e (noteStack · s)) := fewer_of_eq fun _ _ => rfl
      rw [heq]
      exact hnote.trans (fewer_refreshLinks _ w now)
  | lag | stage | connection | reload | vlanSamples => exact fewer_of_eq fun _ _ => rfl

/-- No switch sees two hosts on an access port. -/
def Solitary (w : Wiring) (n : Network) : Prop :=
  ∀ e, isAccess w e = true →
    ∀ a b, n.seenOn a e.switch = some e.port → n.seenOn b e.switch = some e.port → a = b

namespace Solitary

theorem fewer (h : Solitary w n) (hfewer : Fewer n n') : Solitary w n' := fun e haccess a b ha hb =>
  h e haccess a b (hfewer _ _ _ ha) (hfewer _ _ _ hb)

theorem learn (h : Solitary w n) (filed : n.Filed) (e : Endpoint) (mac : Mac) (t : Traits) :
    Solitary w (Network.learn w now e mac t n).network := by
  intro e' haccess a b ha hb
  have hat (m : Mac) (hm : (Network.learn w now e mac t n).network.seenOn m e'.switch = some e'.port) :
      if e' = e then m = mac else n.seenOn m e'.switch = some e'.port := by
    have hmem := mem_macsAt.mpr (((filed.learn e mac t).listed m e').mpr hm)
    rw [filed.mem_macsAt_learn] at hmem
    by_cases he : e' = e
    · subst he
      by_cases hmac : m = mac
      · rwa [if_pos rfl]
      · simp [hmac, mem_displaced, haccess] at hmem
    · rw [if_neg he]
      split at hmem
      next hsame => exact absurd (Endpoint.eq_iff.mpr ⟨hsame.2, hmem⟩) he
      next => exact filed.seenOn_macsAt hmem.2
  have hat_a := hat a ha
  have hat_b := hat b hb
  split at hat_a
  next he =>
    rw [if_pos he] at hat_b
    rw [hat_a, hat_b]
  next he =>
    rw [if_neg he] at hat_b
    exact h e' haccess a b hat_a hat_b

theorem update (h : Solitary w n) (filed : n.Filed) (config : EngineConfig) (u : Update) :
    Solitary w (u.apply config w now n).network := by
  cases hu : u.isLearn with
  | false => exact h.fewer (fewer_update config hu n)
  | true =>
    cases u with
    | learn e mac t => exact h.learn filed e mac t
    | _ => cases hu

theorem empty : Solitary w .empty := fun _ _ a _ ha => by
  simp [seenOn, sighting?, Network.empty] at ha

theorem macsAt_le_one (h : Solitary w n) (filed : n.Filed) {e : Endpoint} (haccess : isAccess w e = true) :
    (n.macsAt e).length ≤ 1 := by
  have hsame : ∀ a ∈ n.macsAt e, ∀ b ∈ n.macsAt e, a = b := fun a ha b hb =>
    h e haccess a b (filed.seenOn_macsAt ha) (filed.seenOn_macsAt hb)
  have hnodup := nodup_macsAt n e
  match hl : n.macsAt e with
  | [] | [_] => simp
  | a :: b :: r =>
    rw [hl] at hsame hnodup
    exact absurd (hsame a (by simp) b (by simp)) fun heq => by simp [heq] at hnodup

end Solitary

/-! ## Restores -/

theorem fewer_finish (config : EngineConfig) (s : Snapshot) (n : Network) :
    Fewer n (finish config w now s n) := by
  show Fewer n (n.applyTopology w now (s.topology config.vlanMetric w n)).1
  by_cases h : n.topology.hash? = some (s.topology config.vlanMetric w n).hash
  · rw [applyTopology_same h]
    exact fewer_of_eq fun _ _ => rfl
  · rw [applyTopology_new h]
    exact (fewer_of_eq fun _ _ => rfl : Fewer n (n.restack n.links _)).trans (fewer_refreshLinks _ w now)

/-- A restore that does not keep the network has nobody but whom the snapshot reports. -/
theorem fewer_restore (config : EngineConfig) (s : Snapshot) (n : Network) :
    Fewer n (n.restore config w now s).1.network ∨
      Fewer (reported config w now s).network (n.restore config w now s).1.network := by
  by_cases hall : ∀ m ∈ Family.metrics config.vlanMetric, s.contains m = true
  · rw [restore_outcome config w now hall]
    exact .inr (fewer_finish config s _)
  · rw [restore_missing config w now hall]
    exact .inl (fewer_of_eq fun _ _ => rfl)

theorem Solitary.updateAll (h : Solitary w n) (filed : n.Filed) (config : EngineConfig) (us : List Update) :
    Solitary w (Outcome.forEach us (Update.apply config w now) n).network :=
  (Outcome.forEach_keeps (P := fun n => n.Filed ∧ Solitary w n)
    (fun u _ _ hn => ⟨hn.1.update config u, hn.2.update hn.1 config u⟩) ⟨filed, h⟩).2

theorem Solitary.restore (h : Solitary w n) (config : EngineConfig) (s : Snapshot) :
    Solitary w (n.restore config w now s).1.network := by
  rcases fewer_restore config s n with hfewer | hfewer
  · exact h.fewer hfewer
  · exact (Solitary.empty.updateAll .empty config _).fewer hfewer

end Network

/-! ## Runs -/

/-- Can the operation put a host on a port? -/
def Operation.learns (vlanMetric : String) : Operation → Bool
  | .update _ u => u.isLearn
  | .dispatch e => e.updates.any Update.isLearn
  | .restore _ s => (s.sampleUpdates vlanMetric).any Update.isLearn
  | _ => false

/-- Are the switches still configured as in `w`? -/
def Operation.keepsWiring (w : Wiring) : Operation → Prop
  | .configure _ w' => w' = w
  | _ => True

namespace Engine

variable {g : Engine} {op : Operation}

theorem fewer_updateAll (now : Instant) {us : List Update} (h : us.any Update.isLearn = false) {n : Network}
    (hn : Fewer n g.network) : Fewer n (g.updateAll now us).1.network :=
  Outcome.forEach_keeps (P := Fewer n)
    (fun _ hu _ hm => hm.trans (fewer_update g.config (by simpa using List.any_eq_false.mp h _ hu) _)) hn

theorem fewer_authorize (g : Engine) (mac : Mac) (a : Authorization) :
    Fewer g.network (g.perform (.authorize mac a)).1.network := by
  rw [perform_authorize]
  cases ha : g.network.authorize mac a with
  | error _ => exact fewer_of_eq fun _ _ => rfl
  | ok n =>
    obtain ⟨old, hold, rfl⟩ := authorize_ok ha
    exact fewer_of_eq (seenOn_authorized hold a)

/-- Until something is learned there are no hosts. -/
theorem unlearned_perform (h : op.learns g.config.vlanMetric = false) (hg : Fewer .empty g.network) :
    Fewer .empty (g.perform op).1.network := by
  cases op with
  | update now u => exact fewer_updateAll now (by simpa [Operation.learns] using h : [u].any Update.isLearn = false) hg
  | dispatch e => exact fewer_updateAll _ h hg
  | configure now w => exact hg.trans (fewer_refreshLinks _ w now)
  | authorize mac a => exact hg.trans (fewer_authorize g mac a)
  | heartbeat now => exact hg.trans (fewer_heartbeat _ g.wiring _ now)
  | setReadiness => exact hg
  | restore now s =>
    show Fewer .empty (g.network.restore g.config g.wiring now s).1.network
    rcases fewer_restore g.config s g.network with hfewer | hfewer
    · exact hg.trans hfewer
    · refine Fewer.trans ?_ hfewer
      refine Outcome.forEach_keeps (P := Fewer .empty) (fun u hu _ hm => hm.trans (fewer_update g.config ?_ _))
        (fewer_of_eq fun _ _ => rfl)
      rcases List.mem_append.mp hu with hsample | hlag
      · simpa using List.any_eq_false.mp h u hsample
      · obtain ⟨e, _, rfl⟩ := List.mem_map.mp hlag
        rfl

theorem solitary_perform (h : op.keepsWiring g.wiring) (filed : g.network.Filed)
    (hg : Solitary g.wiring g.network) :
    (g.perform op).1.wiring = g.wiring ∧ Solitary g.wiring (g.perform op).1.network := by
  cases op with
  | update now u => exact ⟨rfl, hg.updateAll filed g.config [u]⟩
  | dispatch e => exact ⟨rfl, hg.updateAll filed g.config e.updates⟩
  | configure now w => exact ⟨h, hg.fewer (fewer_refreshLinks _ w now)⟩
  | authorize mac a =>
    refine ⟨?_, hg.fewer (fewer_authorize g mac a)⟩
    rw [perform_authorize]
  | heartbeat now => exact ⟨rfl, hg.fewer (fewer_heartbeat _ g.wiring _ now)⟩
  | setReadiness => exact ⟨rfl, hg⟩
  | restore now s => exact ⟨rfl, hg.restore g.config s⟩

theorem run_unlearned (config : EngineConfig) {ops : List Operation}
    (h : ∀ op ∈ ops, op.learns config.vlanMetric = false) :
    Fewer .empty ((fresh config).run ops).1.network :=
  (run_keeps (P := fun g => g.config = config ∧ Fewer .empty g.network)
    (fun op hop g hg => ⟨(perform_config g op).trans hg.1,
      unlearned_perform (hg.1.symm ▸ h op hop) hg.2⟩) ⟨rfl, fewer_of_eq fun _ _ => rfl⟩).2

theorem run_solitary {w : Wiring} {ops : List Operation} (h : ∀ op ∈ ops, op.keepsWiring w)
    (hwiring : g.wiring = w) (filed : g.network.Filed) (hg : Solitary w g.network) :
    (g.run ops).1.wiring = w ∧ Solitary w (g.run ops).1.network := by
  have hall := run_keeps (P := fun g => g.wiring = w ∧ g.network.Filed ∧ Solitary w g.network)
    (fun op (hop : op ∈ ops) g hg => by
      obtain ⟨rfl, hfiled, hsolitary⟩ := hg
      obtain ⟨hsame, hkept⟩ := solitary_perform (h op hop) hfiled hsolitary
      exact ⟨hsame, Filed.kept.perform op g hfiled, hkept⟩) ⟨hwiring, filed, hg⟩
  exact ⟨hall.1, hall.2.2⟩

/-- At any time, to learn a host has its effect (`Learned`) and no other. And if the switches have the
configuration that they are to have before anything is learned, then no access port ever has two hosts,
restores and all. -/
theorem run_learned (config : EngineConfig) :
    (∀ ops now e mac t, let g := ((fresh config).run ops).1
      Learned g.wiring now e mac g.network (g.update now (.learn e mac t)).1.network) ∧
    ∀ early late, (∀ op ∈ early, op.learns config.vlanMetric = false) →
      (∀ op ∈ late, op.keepsWiring ((fresh config).run early).1.wiring) →
      let g := ((fresh config).run (early ++ late)).1
      ∀ e, isAccess g.wiring e = true → (g.network.macsAt e).length ≤ 1 := by
  refine ⟨fun ops now e mac t => ?_, fun early late hearly hlate => ?_⟩
  · intro g
    have hfiled : g.network.Filed := Filed.kept.run config ops
    show Learned g.wiring now e mac g.network
      (Outcome.forEach [.learn e mac t] (Update.apply g.config g.wiring now) g.network).network
    rw [Outcome.forEach_singleton]
    exact learn_learned hfiled e mac t
  · intro g e haccess
    have hstart : Solitary ((fresh config).run early).1.wiring ((fresh config).run early).1.network :=
      Solitary.empty.fewer (run_unlearned config hearly)
    obtain ⟨hwiring, hsolitary⟩ := run_solitary hlate rfl (Filed.kept.run config early) hstart
    have hrun : g = (((fresh config).run early).1.run late).1 := by
      show ((fresh config).run (early ++ late)).1 = _
      rw [run_append]
    have hfiled : g.network.Filed := Filed.kept.run config (early ++ late)
    rw [← hrun] at hwiring hsolitary
    rw [hwiring] at haccess
    exact hsolitary.macsAt_le_one hfiled haccess

section Small

def deskWiring : Wiring :=
  let port : Interface := ⟨none, none, none, none, none, none, none, [], none⟩
  ⟨.ofList [("sw1", ⟨some 1, none, .ofList [(.number 1, port)], ∅⟩)]⟩

def desk : Endpoint := ⟨"sw1", 1⟩

/-- One host after the other on the same port. -/
def deskHosts : List Operation :=
  [.update 1 (.learn desk ⟨"0e:00:00:00:00:0a"⟩ ⟨none, none⟩),
    .update 2 (.learn desk ⟨"0e:00:00:00:00:0b"⟩ ⟨none, none⟩)]

theorem run_learned_small :
    let g := ((fresh .usual).run ([.configure 0 deskWiring] ++ deskHosts)).1
    isAccess g.wiring desk = true ∧ g.network.hosts.isEmpty = false ∧ (g.network.macsAt desk).length ≤ 1 := by
  intro g
  have haccess : isAccess g.wiring desk = true := by decide +kernel
  have hhosts : g.network.hosts.isEmpty = false := by decide +kernel
  refine ⟨haccess, hhosts, (run_learned .usual).2 [.configure 0 deskWiring] deskHosts ?_ ?_ desk haccess⟩
  · exact List.forall_mem_singleton.mpr rfl
  · exact List.forall_mem_cons.mpr ⟨trivial, List.forall_mem_singleton.mpr trivial⟩

end Small

end Engine
end Fabric
