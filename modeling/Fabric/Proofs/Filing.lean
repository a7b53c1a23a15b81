import Fabric.Proofs.Kept

/-! Two tables say where a host is, and switches and links repeat the key that they are filed
under. `Filed` says that nothing of this ever disagrees. Only losing a host and recording one write
both tables, so they carry the argument; every other update keeps what a port lists and what a
host is seen on. -/

namespace Fabric

open Network

namespace Network

/-- The port of the switch on which the host table has the host. -/
def seenOn (n : Network) (mac : Mac) (switch : String) : Option UInt32 :=
  (n.sighting? mac switch).map (·.port)

def lists (n : Network) (e : Endpoint) (mac : Mac) : Bool := (n.portAt e).macs.contains mac

theorem mem_macsAt {n : Network} {e : Endpoint} {mac : Mac} :
    mac ∈ n.macsAt e ↔ n.lists e mac = true := by
  unfold macsAt lists portAt
  cases n.port? e with
  | none => simp [Port.fresh, Table.contains]
  | some p => exact Table.mem_keys

variable {w : Wiring} {now : Instant}

theorem lists_withoutMac (n : Network) (place e : Endpoint) (mac m : Mac) (hosts : Table Mac Host)
    (changes : Nat) :
    ({ n with hosts := hosts, hostChanges := changes,
              switches := withoutMac n.switches place mac } : Network).lists e m =
      if e = place ∧ m = mac then false else n.lists e m := by
  rw [lists, portAt, port?_withoutMac]
  by_cases he : e = place
  · rw [if_pos he]
    by_cases hm : m = mac
    · rw [if_pos ⟨he, hm⟩, hm]
      cases n.port? e <;> simp [Port.fresh, Table.contains]
    · rw [if_neg (fun h => hm h.2), lists, portAt]
      cases n.port? e <;> simp [Port.fresh, Table.contains, hm]
  · rw [if_neg he, if_neg (fun h => he h.1)]
    rfl

theorem seenOn_forget (n : Network) (mac m : Mac) (switch s : String) :
    (forget w mac switch n).network.seenOn m s =
      if m = mac ∧ s = switch then none else n.seenOn m s := by
  rw [seenOn, sighting?_forget]
  split <;> rfl

theorem lists_record (n : Network) (e e' : Endpoint) (mac m : Mac) (t : Traits) :
    (record w now e mac t n).network.lists e' m =
      if m = mac ∧ e' = e then true
      else if m = mac ∧ e'.switch = e.switch ∧ n.leftPort e mac = some e'.port then false
      else n.lists e' m := by
  rw [lists, portAt, port?_record]
  by_cases he : e' = e
  · subst he
    have hleft : ¬ n.leftPort e' mac = some e'.port := leftPort_ne n e' mac
    by_cases hm : m = mac
    · simp [hm, Table.contains, KeySet.get?_add]
    · simp [hm, hleft, lists]
  · by_cases hl : e'.switch = e.switch ∧ n.leftPort e mac = some e'.port
    · by_cases hm : m = mac <;> simp [he, hl, hm, Table.contains, lists]
    · simp [he, hl, lists, portAt]

theorem seenOn_record (n : Network) (e : Endpoint) (mac m : Mac) (t : Traits) (s : String) :
    (record w now e mac t n).network.seenOn m s =
      if m = mac ∧ s = e.switch then some e.port else n.seenOn m s := by
  rw [seenOn, sighting?_record]
  split <;> rfl

/-- What is attached to a host does not move it. -/
theorem seenOn_authorized {n : Network} {mac : Mac} {old : Host} (hold : n.hosts.get? mac = some old)
    (a : Authorization) (m : Mac) (s : String) :
    ({ n with hosts := n.hosts.insert mac { old with authorization := some a } } : Network).seenOn m s =
      n.seenOn m s := by
  unfold seenOn sighting?
  rw [Table.get?_insert]
  split
  next hm => rw [hm, hold]; rfl
  next => rfl

/-- The host table and the ports agree, and so do keys and what is filed under them. -/
structure Filed (n : Network) : Prop where
  listed : ∀ mac e, n.lists e mac = true ↔ n.seenOn mac e.switch = some e.port
  sighted : ∀ mac h, n.hosts.get? mac = some h → h.sightings.isEmpty = false
  named : ∀ name s, n.switches.get? name = some s → s.name = name
  keyed : ∀ l x, n.links.get? l = some x → x.link = l

namespace Filed

variable {n : Network}

theorem empty : Filed .empty where
  listed _ _ := by simp [lists, portAt, port?, seenOn, sighting?, Network.empty, Port.fresh, Table.contains]
  sighted _ _ h := by simp [Network.empty] at h
  named _ _ h := by simp [Network.empty] at h
  keyed _ _ h := by simp [Network.empty] at h

/-! ## Switches, ports and links -/

theorem named_upsert {f : Switch → Switch} (hf : ∀ s, (f s).name = s.name) {name : String}
    (h : ∀ k s, n.switches.get? k = some s → s.name = k) (k : String) (s : Switch)
    (hs : (n.updateSwitch name f).switches.get? k = some s) : s.name = k := by
  rw [updateSwitch, Table.get?_upsert] at hs
  split at hs
  next hk =>
    cases hs
    rw [hf, hk]
    cases hg : n.switches.get? name with
    | none => rfl
    | some old => exact h name old hg
  next => exact h k s hs

theorem updateSwitch (h : n.Filed) {name : String} {f : Switch → Switch}
    (hname : ∀ s, (f s).name = s.name) (hports : ∀ s, (f s).ports = s.ports) :
    (n.updateSwitch name f).Filed where
  listed mac e := by
    rw [lists, portAt, port?_updateSwitch hports]
    exact h.listed mac e
  sighted := h.sighted
  named := named_upsert hname h.named
  keyed := h.keyed

theorem updatePort (h : n.Filed) (e : Endpoint) {f : Port → Port} (hf : ∀ p, (f p).macs = p.macs) :
    (n.updatePort e f).Filed where
  listed mac e' := by
    have hlists : (n.updatePort e f).lists e' mac = n.lists e' mac := by
      rw [lists, portAt, port?_updatePort]
      split
      next he => rw [Option.getD_some, hf, he, lists]
      next => rfl
    rw [hlists]
    exact h.listed mac e'
  sighted := h.sighted
  named := named_upsert (f := fun s => { s with ports := s.ports.upsert e.port .fresh f })
    (fun _ => rfl) h.named
  keyed := h.keyed

theorem refreshLinks (h : n.Filed) (w : Wiring) (now : Instant) : (n.refreshLinks w now).Filed := by
  have hkeyed : ∀ l x, (n.refreshLinks w now).links.get? l = some x → x.link = l := by
    intro l x hx
    rw [get?_refreshLinks] at hx
    split at hx
    next =>
      cases hx
      rw [TrackedLink.become_link, linkEntry]
      cases hl : n.links.get? l with
      | none => rfl
      | some y => exact h.keyed l y hl
    next => cases hx
  rw [refreshLinks_eq] at hkeyed ⊢
  exact ⟨h.listed, h.sighted, h.named, hkeyed⟩

/-! ## Losing a host -/

theorem sighted_withoutSighting {hosts : Table Mac Host}
    (h : ∀ mac x, hosts.get? mac = some x → x.sightings.isEmpty = false) (mac : Mac)
    (switch : String) (m : Mac) (x : Host)
    (hx : (withoutSighting hosts mac switch).get? m = some x) : x.sightings.isEmpty = false := by
  unfold withoutSighting at hx
  split at hx
  · exact h m x hx
  next old _ =>
    dsimp only at hx
    split at hx
    · rw [Table.get?_erase] at hx
      split at hx
      · cases hx
      · exact h m x hx
    next hrest =>
      rw [Table.get?_insert] at hx
      split at hx
      · cases hx
        simpa using hrest
      · exact h m x hx

theorem named_withoutMac {switches : Table String Switch}
    (h : ∀ k s, switches.get? k = some s → s.name = k) (place : Endpoint) (mac : Mac) (k : String)
    (s : Switch) (hs : (withoutMac switches place mac).get? k = some s) : s.name = k := by
  rw [withoutMac, Table.get?_modify] at hs
  split at hs
  next hk =>
    obtain ⟨old, hold, rfl⟩ := Option.map_eq_some_iff.mp hs
    rw [hk]
    exact h _ old hold
  next => exact h k s hs

theorem forget (h : n.Filed) (mac : Mac) (switch : String) :
    (Network.forget w mac switch n).network.Filed := by
  have hseen := fun m s => seenOn_forget (w := w) n mac m switch s
  cases hx : n.sighting? mac switch with
  | none =>
    rw [forget_none hx]
    exact h
  | some x =>
    have hon : n.seenOn mac switch = some x.port := by rw [seenOn, hx]; rfl
    rw [forget_some hx] at hseen ⊢
    refine ⟨fun m e => ?_, ?_, ?_, h.keyed⟩
    · rw [lists_withoutMac]
      -- of all the ports of the switch only the one of the sighting lists the host
      by_cases hm : m = mac ∧ e.switch = switch
      · rw [hseen, if_pos hm]
        obtain ⟨rfl, hs⟩ := hm
        by_cases hp : e.port = x.port
        · simp [Endpoint.eq_iff, hs, hp]
        · have hne : ¬ (e = ⟨switch, x.port⟩ ∧ m = m) := fun he => hp (congrArg Endpoint.port he.1)
          rw [if_neg hne, h.listed, hs, hon]
          simp [Ne.symm hp]
      · have hne : ¬ (e = ⟨switch, x.port⟩ ∧ m = mac) :=
          fun he => hm ⟨he.2, congrArg Endpoint.switch he.1⟩
        rw [if_neg hne, hseen, if_neg hm]
        exact h.listed m e
    · exact sighted_withoutSighting h.sighted mac switch
    · exact named_withoutMac h.named _ mac

theorem forgetAll (h : n.Filed) (macs : List Mac) (switch : String) :
    (Network.forgetAll w macs switch n).network.Filed :=
  Outcome.forEach_keeps (P := Filed) (fun mac _ _ hm => hm.forget mac switch) h

/-! ## Recording a host -/

theorem record (h : n.Filed) (e : Endpoint) (mac : Mac) (t : Traits) :
    (Network.record w now e mac t n).network.Filed where
  listed m e' := by
    rw [lists_record]
    by_cases hm : m = mac ∧ e'.switch = e.switch
    · have hon : (Network.record w now e mac t n).network.seenOn m e'.switch = some e.port := by
        rw [seenOn_record, if_pos hm]
      rw [hon]
      obtain ⟨rfl, hs⟩ := hm
      by_cases hp : e'.port = e.port
      · simp [Endpoint.eq_iff, hs, hp]
      · -- the host was on this port before, or it is not on it now either
        have hne : ¬ (m = m ∧ e' = e) := fun he => hp (congrArg Endpoint.port he.2)
        rw [if_neg hne]
        have hleft : n.leftPort e m = some e'.port ↔ n.lists e' m = true := by
          rw [h.listed, leftPort, hs, seenOn, Option.filter_eq_some_iff]
          simp [hp]
        by_cases hl : n.leftPort e m = some e'.port
        · simp [hs, hl, Ne.symm hp]
        · have hno : n.lists e' m = false := by rw [← Bool.not_eq_true, ← hleft]; exact hl
          simp [hl, hno, Ne.symm hp]
    · have hne : ¬ (m = mac ∧ e' = e) := fun he => hm ⟨he.1, congrArg Endpoint.switch he.2⟩
      have hleft : ¬ (m = mac ∧ e'.switch = e.switch ∧ n.leftPort e mac = some e'.port) :=
        fun hl => hm ⟨hl.1, hl.2.1⟩
      rw [if_neg hne, if_neg hleft, seenOn_record, if_neg hm]
      exact h.listed m e'
  sighted m x hx := by
    change (n.hosts.insert mac _).get? m = some x at hx
    rw [Table.get?_insert] at hx
    split at hx
    · cases hx
      exact Table.isEmpty_insert _ _ _
    · exact h.sighted m x hx
  named := named_upsert (n := n) (f := fun s => { s with ports := movedTo s.ports mac _ e.port })
    (fun _ => rfl) h.named
  keyed := h.keyed

/-! ## Updates -/

theorem clearPort (h : n.Filed) (e : Endpoint) : (Network.clearPort w e n).network.Filed := by
  unfold Network.clearPort
  split
  · exact h
  · exact h.forgetAll _ e.switch

theorem portState (h : n.Filed) (e : Endpoint) (up : Bool) :
    (Network.portState w now e up n).network.Filed := by
  by_cases hs : (n.port? e).any (·.up = some up) = true
  · rw [portState_same hs]
    exact h
  · have hnote := h.updatePort e (f := (notePort · now up)) (fun _ => rfl)
    rw [portState_news hs, Outcome.andThen_network]
    dsimp only
    split
    · exact hnote.clearPort e
    · exact hnote

theorem learn (h : n.Filed) (e : Endpoint) (mac : Mac) (t : Traits) :
    (Network.learn w now e mac t n).network.Filed := by
  rw [Network.learn, Outcome.andThen_network]
  exact (h.forgetAll _ e.switch).record e mac t

theorem expire (h : n.Filed) (e : Endpoint) (mac : Mac) : (Network.expire w e mac n).network.Filed := by
  unfold Network.expire
  split
  · exact h.forget mac e.switch
  · exact h

theorem connection (h : n.Filed) (name : String) (dpId : Option UInt64) (connected : Bool) :
    (Network.connection now name dpId connected n).Filed := by
  unfold Network.connection
  generalize (if connected then SwitchStatus.connected else .down) = status
  refine h.updateSwitch (fun s => ?_) (fun s => ?_)
  all_goals by_cases hs : s.status = some status <;> simp [hs]

theorem stackState (h : n.Filed) (e : Endpoint) (code : Int) : (Network.stackState w now e code n).Filed := by
  rcases stackState_cases w now e code n with heq | ⟨s, heq⟩
  · rw [heq]
    exact h
  · rw [heq]
    exact (h.updatePort e (f := (noteStack · s)) (fun _ => rfl)).refreshLinks w now

/-- Topologies, egress members, VLANs and counters are in neither table. -/
theorem congr {m : Network} (h : n.Filed) (hswitches : m.switches = n.switches)
    (hlinks : m.links = n.links) (hhosts : m.hosts = n.hosts) : m.Filed := by
  cases m
  cases hswitches
  cases hlinks
  cases hhosts
  exact ⟨h.listed, h.sighted, h.named, h.keyed⟩

theorem heartbeat (h : n.Filed) (window : Nat) : (n.heartbeat w window now).1.Filed := by
  rcases heartbeat_cases n w window now with heq | heq | ⟨status, heq⟩
  · rw [heq]
    exact h
  · rw [heq]
    exact h.congr rfl rfl rfl
  · have hstatus : Filed { n with topology := status } := h.congr rfl rfl rfl
    rw [heq]
    exact hstatus.refreshLinks w now

theorem authorize (h : n.Filed) {mac : Mac} {a : Authorization} {n' : Network}
    (ha : Network.authorize mac a n = .ok n') : n'.Filed := by
  obtain ⟨old, hold, rfl⟩ := authorize_ok ha
  refine ⟨fun m e => ?_, fun m x hx => ?_, h.named, h.keyed⟩
  · rw [seenOn_authorized hold]
    exact h.listed m e
  · rw [Table.get?_insert] at hx
    split at hx
    · cases hx
      exact h.sighted mac old hold
    · exact h.sighted m x hx

theorem update (h : n.Filed) (config : EngineConfig) (u : Update) :
    (u.apply config w now n).network.Filed := by
  cases u with
  | portState e up => exact h.portState e up
  | learn e mac t => exact h.learn e mac t
  | expire e mac => exact h.expire e mac
  | stackState e code => exact h.stackState e code
  | connection s dpId connected => exact h.connection s dpId connected
  | reload s dpId kind hashes => exact h.updateSwitch (fun _ => rfl) (fun _ => rfl)
  | lag | stage | vlanSamples => exact h.congr rfl rfl rfl

theorem kept : Kept fun _ n => n.Filed where
  fresh := empty
  update config _ _ u _ h := h.update config u
  configure _ w now _ h := h.refreshLinks w now
  authorize _ _ _ _ _ ha h := h.authorize ha
  heartbeat _ window _ _ h := h.heartbeat window

/-- A host is on one port of a switch. -/
theorem once (h : n.Filed) {mac : Mac} {s : String} {p q : UInt32} (hp : mac ∈ n.macsAt ⟨s, p⟩)
    (hq : mac ∈ n.macsAt ⟨s, q⟩) : p = q := by
  have hon := (h.listed mac ⟨s, p⟩).mp (mem_macsAt.mp hp)
  rw [(h.listed mac ⟨s, q⟩).mp (mem_macsAt.mp hq)] at hon
  exact (Option.some.inj hon).symm

end Filed
end Network

/-- Whatever was done to an engine, a host is listed on a port exactly when its entry has that port
for the switch, so on one port of a switch at most; every host entry has a switch that sees it; and
switches and links are filed under their own names and keys. -/
theorem Engine.run_filed (config : EngineConfig) (ops : List Operation) :
    let n := ((Engine.fresh config).run ops).1.network
    (∀ mac s p, mac ∈ n.macsAt ⟨s, p⟩ ↔ ∃ x, n.sighting? mac s = some x ∧ x.port = p) ∧
      (∀ mac s p q, mac ∈ n.macsAt ⟨s, p⟩ → mac ∈ n.macsAt ⟨s, q⟩ → p = q) ∧
      (∀ mac h, n.hosts.get? mac = some h → ∃ s x, h.sightings.get? s = some x) ∧
      (∀ name s, n.switches.get? name = some s → s.name = name) ∧
      ∀ l x, n.links.get? l = some x → x.link = l := by
  intro n
  have h : n.Filed := Filed.kept.run config ops
  refine ⟨fun mac s p => ?_, fun _ _ _ _ => h.once, fun mac x hx => ?_, h.named, h.keyed⟩
  · rw [mem_macsAt, h.listed, seenOn, Option.map_eq_some_iff]
  · have hseen := h.sighted mac x hx
    rw [← Bool.not_eq_true, Table.isEmpty_iff] at hseen
    obtain ⟨s, hs⟩ := Classical.not_forall.mp hseen
    exact ⟨s, Option.ne_none_iff_exists'.mp hs⟩

end Fabric
