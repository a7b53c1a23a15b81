import Fabric.Proofs.Placement

/-! What is watched has a state and a count of its changes: ports, switches, egress members and links,
and of the topology in force its links and its root (`Counted`). An update that leaves the state of a
thing alone leaves its count alone, and one that changes it counts one change at the time of the update
(`Noted`). Of hosts only the number of changes is kept; it goes by the pairs of host and switch whose
port is another one than before (`Moves`). Nothing but hosts is ever taken off the record
(`Persists`), so counts only grow. -/

namespace Fabric

open Network

/-- Whatever has a state that is watched and a count of its changes. -/
inductive Counted where
  | port (place : Endpoint)
  | switch (name : String)
  | member (place : Endpoint)
  | link (l : Link)
  /-- The links of the topology in force. -/
  | links
  /-- The root of the topology in force, and the ways to it. -/
  | root
deriving DecidableEq

def Counted.State : Counted → Type
  | port _ => Option Bool
  | switch _ => Option SwitchStatus
  | member _ => Option LacpState × Option LacpRole
  | link _ => LinkState
  | links => KeySet Link
  | root => Option String × Table String UInt32

namespace Network

variable {n m k : Network} {w : Wiring} {now : Instant} {x : Counted}

/-- The switch, or the one that comes to be at its first mention. -/
def switchAt (n : Network) (name : String) : Switch := (n.switches.get? name).getD (.fresh name)

/-- The member, or the one that comes to be at its first mention. -/
def memberAt (n : Network) (e : Endpoint) : EgressMember := (n.egress.get? e).getD .silent

def stateOf (n : Network) : (x : Counted) → x.State
  | .port e => (n.portAt e).up
  | .switch s => (n.switchAt s).status
  | .member e => ((n.memberAt e).state, (n.memberAt e).role)
  | .link l => (n.linkEntry l).state
  | .links => n.topology.applied.links
  | .root => (n.topology.applied.root, n.topology.applied.rootHops)

def changesOf (n : Network) : Counted → Changes
  | .port e => (n.portAt e).changes
  | .switch s => (n.switchAt s).changes
  | .member e => (n.memberAt e).changes
  | .link l => (n.linkEntry l).changes
  | .links => n.topology.linkChanges
  | .root => n.topology.rootChanges

/-- A change is counted, at its time, and nothing else is. -/
structure Noted (now : Instant) (n m : Network) (x : Counted) : Prop where
  same : m.stateOf x = n.stateOf x → m.changesOf x = n.changesOf x
  changed : m.stateOf x ≠ n.stateOf x → m.changesOf x = (n.changesOf x).note now

structure Still (n m : Network) (x : Counted) : Prop where
  state : m.stateOf x = n.stateOf x
  changes : m.changesOf x = n.changesOf x

theorem Still.refl (n : Network) (x : Counted) : Still n n x := ⟨rfl, rfl⟩

theorem Still.trans (h : Still n m x) (h' : Still m k x) : Still n k x :=
  ⟨h'.state.trans h.state, h'.changes.trans h.changes⟩

theorem Still.noted (h : Still n m x) : Noted now n m x where
  same _ := h.changes
  changed hne := absurd h.state hne

theorem Still.trans_noted (h : Still n m x) (h' : Noted now m k x) : Noted now n k x where
  same heq := (h'.same (heq.trans h.state.symm)).trans h.changes
  changed hne := by
    rw [← h.changes]
    exact h'.changed fun heq => hne (heq.trans h.state)

theorem Noted.trans_still (h : Noted now n m x) (h' : Still m k x) : Noted now n k x where
  same heq := h'.changes.trans (h.same (h'.state.symm.trans heq))
  changed hne := h'.changes.trans (h.changed fun heq => hne (h'.state.trans heq))

theorem still_port {e : Endpoint} (h : m.portAt e = n.portAt e) : Still n m (.port e) :=
  ⟨congrArg Port.up h, congrArg Port.changes h⟩

theorem still_switch {s : String} (h : m.switchAt s = n.switchAt s) : Still n m (.switch s) :=
  ⟨congrArg Switch.status h, congrArg Switch.changes h⟩

theorem still_member {e : Endpoint} (h : m.memberAt e = n.memberAt e) : Still n m (.member e) :=
  ⟨congrArg (fun y : EgressMember => (y.state, y.role)) h, congrArg EgressMember.changes h⟩

theorem still_link {l : Link} (h : m.linkEntry l = n.linkEntry l) : Still n m (.link l) :=
  ⟨congrArg TrackedLink.state h, congrArg TrackedLink.changes h⟩

/-- A thing that is reported to be in state `s`. -/
theorem Noted.report {s : x.State} (hstate : m.stateOf x = s)
    (hsame : n.stateOf x = s → m.changesOf x = n.changesOf x)
    (hnews : n.stateOf x ≠ s → m.changesOf x = (n.changesOf x).note now) : Noted now n m x where
  same heq := hsame (heq.symm.trans hstate)
  changed hne := hnews fun heq => hne (hstate.trans heq.symm)

/-- A count grows by the change, if there was one. -/
theorem Noted.count_le (h : Noted now n m x) : (n.changesOf x).count ≤ (m.changesOf x).count := by
  by_cases hstate : m.stateOf x = n.stateOf x
  · exact Nat.le_of_eq (congrArg Changes.count (h.same hstate)).symm
  · exact Nat.le_trans (Nat.le_succ _) (Nat.le_of_eq (congrArg Changes.count (h.changed hstate)).symm)

/-- Of switches, ports, links, egress members and VLANs none is lost. -/
structure Persists (n m : Network) : Prop where
  switches : ∀ s, n.switches.contains s = true → m.switches.contains s = true
  ports : ∀ e, (n.port? e).isSome = true → (m.port? e).isSome = true
  links : ∀ l, n.links.contains l = true → m.links.contains l = true
  members : ∀ e, n.egress.contains e = true → m.egress.contains e = true
  vlans : ∀ v, n.vlans.contains v = true → m.vlans.contains v = true

theorem Persists.refl (n : Network) : Persists n n :=
  ⟨fun _ => id, fun _ => id, fun _ => id, fun _ => id, fun _ => id⟩

theorem Persists.trans (h : Persists n m) (h' : Persists m k) : Persists n k where
  switches s hs := h'.switches s (h.switches s hs)
  ports e he := h'.ports e (h.ports e he)
  links l hl := h'.links l (h.links l hl)
  members e he := h'.members e (h.members e he)
  vlans v hv := h'.vlans v (h.vlans v hv)

/-- Tables that stay lose nothing. -/
theorem Persists.of_eq (hswitches : m.switches = n.switches) (hlinks : m.links = n.links)
    (hegress : m.egress = n.egress) (hvlans : m.vlans = n.vlans) : Persists n m where
  switches s hs := by rwa [hswitches]
  ports e he := by rwa [port?, hswitches]
  links l hl := by rwa [hlinks]
  members e he := by rwa [hegress]
  vlans v hv := by rwa [hvlans]

/-- No change that is counted. -/
structure Quiet (n m : Network) : Prop where
  still : ∀ x, Still n m x
  persists : Persists n m

structure Counts (now : Instant) (n m : Network) : Prop where
  noted : ∀ x, Noted now n m x
  persists : Persists n m

theorem Quiet.refl (n : Network) : Quiet n n := ⟨Still.refl n, .refl n⟩

theorem Quiet.trans (h : Quiet n m) (h' : Quiet m k) : Quiet n k :=
  ⟨fun x => (h.still x).trans (h'.still x), h.persists.trans h'.persists⟩

theorem Quiet.counts (h : Quiet n m) : Counts now n m := ⟨fun x => (h.still x).noted, h.persists⟩

theorem Quiet.trans_counts (h : Quiet n m) (h' : Counts now m k) : Counts now n k :=
  ⟨fun x => (h.still x).trans_noted (h'.noted x), h.persists.trans h'.persists⟩

theorem Counts.trans_quiet (h : Counts now n m) (h' : Quiet m k) : Counts now n k :=
  ⟨fun x => (h.noted x).trans_still (h'.still x), h.persists.trans h'.persists⟩

/-! ## Switches and ports -/

theorem switchAt_upsert {name : String} {f : Switch → Switch}
    (h : m.switches = n.switches.upsert name (.fresh name) f) (s : String) :
    m.switchAt s = if s = name then f (n.switchAt name) else n.switchAt s := by
  unfold switchAt
  rw [h, Table.get?_upsert]
  split
  · rfl
  · rfl

theorem portAt_updatePort (n : Network) (e e' : Endpoint) (f : Port → Port) :
    (n.updatePort e f).portAt e' = if e' = e then f (n.portAt e) else n.portAt e' := by
  rw [portAt, port?_updatePort]
  split
  · rfl
  · rfl

theorem persists_updateSwitch (n : Network) (name : String) {f : Switch → Switch}
    (hports : ∀ s p, s.ports.contains p = true → (f s).ports.contains p = true) :
    Persists n (n.updateSwitch name f) where
  switches s hs := by
    show (n.switches.upsert name _ f).contains s = true
    rw [Table.contains_upsert, hs, Bool.or_true]
  ports e he := by
    unfold port? updateSwitch at *
    rw [Table.get?_upsert]
    split
    next hs =>
      rw [hs] at he
      cases hg : n.switches.get? name with
      | none =>
        rw [hg] at he
        cases he
      | some s =>
        rw [hg] at he
        exact hports s e.port he
    next => exact he
  links _ := id
  members _ := id
  vlans _ := id

theorem still_upsert (name : String) {f : Switch → Switch}
    (h : m.switches = n.switches.upsert name (.fresh name) f) (hstatus : ∀ s, (f s).status = s.status)
    (hchanges : ∀ s, (f s).changes = s.changes) (s : String) : Still n m (.switch s) := by
  have hswitch := switchAt_upsert h s
  by_cases hs : s = name
  · subst hs
    rw [if_pos rfl] at hswitch
    exact ⟨(congrArg Switch.status hswitch).trans (hstatus _),
      (congrArg Switch.changes hswitch).trans (hchanges _)⟩
  · rw [if_neg hs] at hswitch
    exact still_switch hswitch

/-- Neither the status of a switch nor anything of its ports is touched. -/
theorem quiet_updateSwitch (n : Network) (name : String) {f : Switch → Switch}
    (hports : ∀ s, (f s).ports = s.ports) (hstatus : ∀ s, (f s).status = s.status)
    (hchanges : ∀ s, (f s).changes = s.changes) : Quiet n (n.updateSwitch name f) where
  still x := by
    cases x with
    | port e =>
      refine still_port ?_
      rw [portAt, port?_updateSwitch hports, portAt]
    | switch s => exact still_upsert name rfl hstatus hchanges s
    | _ => exact ⟨rfl, rfl⟩
  persists := persists_updateSwitch n name fun s p hp => by rw [hports]; exact hp

/-- What happens to a port happens to no other thing. -/
theorem still_updatePort (n : Network) {e : Endpoint} (f : Port → Port) (hx : x ≠ .port e) :
    Still n (n.updatePort e f) x := by
  cases x with
  | port e' =>
    have hne : ¬ e' = e := fun he => hx (congrArg Counted.port he)
    refine still_port ?_
    rw [portAt_updatePort, if_neg hne]
  | switch s =>
    exact still_upsert e.switch (f := fun s => { s with ports := s.ports.upsert e.port .fresh f }) rfl
      (fun _ => rfl) (fun _ => rfl) s
  | _ => exact ⟨rfl, rfl⟩

theorem persists_updatePort (n : Network) (e : Endpoint) (f : Port → Port) :
    Persists n (n.updatePort e f) := by
  refine persists_updateSwitch n e.switch fun s p hp => ?_
  show (s.ports.upsert e.port .fresh f).contains p = true
  rw [Table.contains_upsert, hp, Bool.or_true]

/-! ## Hosts -/

/-- What is watched of a port, unless there is nothing to see yet. -/
def watched (p : Port) : Option (Option Bool × Changes) :=
  if p.up = none ∧ p.changes = .none then none else some (p.up, p.changes)

theorem blind_watched : Blind watched := ⟨rfl, fun _ _ => rfl⟩

theorem still_of_watched {e : Endpoint} (h : m.view watched e = n.view watched e) :
    Still n m (.port e) := by
  rw [← blind_watched.portAt, ← blind_watched.portAt] at h
  have hboth : (m.portAt e).up = (n.portAt e).up ∧ (m.portAt e).changes = (n.portAt e).changes := by
    unfold watched at h
    split at h
    next hm =>
      split at h
      next hn => exact ⟨hm.1.trans hn.1.symm, hm.2.trans hn.2.symm⟩
      next => cases h
    next =>
      split at h
      · cases h
      · exact Prod.mk.inj (Option.some.inj h)
  exact ⟨hboth.1, hboth.2⟩

theorem switchAt_withoutMac (n : Network) (place : Endpoint) (mac : Mac) (s : String) :
    let t := (withoutMac n.switches place mac).get? s
    t.isSome = (n.switches.get? s).isSome ∧ (t.getD (.fresh s)).status = (n.switchAt s).status ∧
      (t.getD (.fresh s)).changes = (n.switchAt s).changes := by
  intro t
  have ht : t = _ := Table.get?_modify ..
  rw [ht, switchAt]
  split
  next hs =>
    rw [hs]
    cases n.switches.get? place.switch <;> exact ⟨rfl, rfl, rfl⟩
  next => exact ⟨rfl, rfl, rfl⟩

/-- Losing a host takes it off a port and leaves everything else of the port as it is. -/
theorem quiet_forget (n : Network) (mac : Mac) (switch : String) :
    Quiet n (forget w mac switch n).network := by
  have hview := fun e => view_forget (w := w) blind_watched n mac switch e
  cases h : n.sighting? mac switch with
  | none =>
    rw [forget_none h]
    exact .refl n
  | some s =>
    have hswitch := switchAt_withoutMac n ⟨switch, s.port⟩ mac
    rw [forget_some h] at hview ⊢
    refine ⟨fun x => ?_, ⟨fun k hk => (hswitch k).1.trans hk, fun e he => ?_, fun _ => id, fun _ => id,
      fun _ => id⟩⟩
    · cases x with
      | port e => exact still_of_watched (hview e)
      | switch k => exact ⟨(hswitch k).2.1, (hswitch k).2.2⟩
      | _ => exact ⟨rfl, rfl⟩
    · rw [port?_withoutMac]
      split
      · rwa [Option.isSome_map]
      · exact he

theorem quiet_forgetAll (n : Network) (macs : List Mac) (switch : String) :
    Quiet n (forgetAll w macs switch n).network :=
  Outcome.forEach_keeps (P := Quiet n) (fun mac _ _ hm => hm.trans (quiet_forget _ mac switch)) (.refl n)

theorem quiet_clearPort (n : Network) (e : Endpoint) : Quiet n (clearPort w e n).network := by
  unfold clearPort
  split
  · exact .refl n
  · exact quiet_forgetAll n _ e.switch

theorem quiet_record (n : Network) (e : Endpoint) (mac : Mac) (t : Traits) :
    Quiet n (record w now e mac t n).network where
  still x := by
    cases x with
    | port e' => exact still_of_watched (view_record blind_watched n e e' mac t)
    | switch s =>
      exact still_upsert e.switch (f := fun s => { s with ports := movedTo s.ports mac _ e.port }) rfl
        (fun _ => rfl) (fun _ => rfl) s
    | _ => exact ⟨rfl, rfl⟩
  persists := by
    refine ⟨fun s hs => ?_, fun e' he => ?_, fun _ => id, fun _ => id, fun _ => id⟩
    · show (n.switches.upsert e.switch _ _).contains s = true
      rw [Table.contains_upsert, hs, Bool.or_true]
    · rw [port?_record]
      split
      · rfl
      · split
        · rfl
        · exact he

theorem quiet_learn (n : Network) (e : Endpoint) (mac : Mac) (t : Traits) :
    Quiet n (learn w now e mac t n).network := by
  rw [learn, Outcome.andThen_network]
  exact (quiet_forgetAll n _ e.switch).trans (quiet_record _ e mac t)

theorem quiet_expire (n : Network) (e : Endpoint) (mac : Mac) : Quiet n (expire w e mac n).network := by
  unfold expire
  split
  · exact quiet_forget n mac e.switch
  · exact .refl n

/-! ## Updates -/

theorem still_portState (n : Network) {e : Endpoint} (up : Bool) (hx : x ≠ .port e) :
    Still n (portState w now e up n).network x := by
  by_cases h : (n.port? e).any (·.up = some up) = true
  · rw [portState_same h]
    exact .refl n x
  · rw [portState_news h, Outcome.andThen_network]
    have hnote := still_updatePort n (notePort · now up) hx
    dsimp only
    split
    · exact hnote.trans ((quiet_clearPort _ e).still x)
    · exact hnote

theorem counts_portState (n : Network) (e : Endpoint) (up : Bool) :
    Counts now n (portState w now e up n).network := by
  by_cases h : (n.port? e).any (·.up = some up) = true
  · rw [portState_same h]
    exact (Quiet.refl n).counts
  · have hport : (n.updatePort e (notePort · now up)).portAt e = notePort (n.portAt e) now up := by
      rw [portAt_updatePort, if_pos rfl]
    have hnews : (n.portAt e).up ≠ some up := by
      rw [any_up_iff, upState?, ← blind_up.portAt] at h
      exact h
    have hnote : Counts now n (n.updatePort e (notePort · now up)) := by
      refine ⟨fun x => ?_, persists_updatePort n e _⟩
      by_cases hx : x = .port e
      · subst hx
        exact .report (congrArg Port.up hport) (fun heq => absurd heq hnews)
          fun _ => congrArg Port.changes hport
      · exact (still_updatePort n _ hx).noted
    rw [portState_news h, Outcome.andThen_network]
    dsimp only
    split
    · exact hnote.trans_quiet (quiet_clearPort _ e)
    · exact hnote

/-- The switch with what is reported of its connection. -/
def noteConnection (now : Instant) (dpId : Option UInt64) (status : SwitchStatus) (s : Switch) : Switch :=
  if s.status = some status then { s with dpId := dpId.or s.dpId }
  else { s with dpId := dpId.or s.dpId, status := some status, changes := s.changes.note now }

theorem connection_eq (n : Network) (name : String) (dpId : Option UInt64) (connected : Bool) :
    connection now name dpId connected n =
      n.updateSwitch name (noteConnection now dpId (if connected then .connected else .down)) := rfl

theorem noteConnection_ports (dpId : Option UInt64) (status : SwitchStatus) (s : Switch) :
    (noteConnection now dpId status s).ports = s.ports := by
  unfold noteConnection
  split <;> rfl

theorem noteConnection_status (dpId : Option UInt64) (status : SwitchStatus) (s : Switch) :
    (noteConnection now dpId status s).status = some status := by
  unfold noteConnection
  split
  · assumption
  · rfl

theorem noteConnection_changes (dpId : Option UInt64) (status : SwitchStatus) (s : Switch) :
    (noteConnection now dpId status s).changes =
      if s.status = some status then s.changes else s.changes.note now := by
  unfold noteConnection
  split <;> rfl

theorem counts_connection (n : Network) (name : String) (dpId : Option UInt64) (connected : Bool) :
    Counts now n (connection now name dpId connected n) := by
  rw [connection_eq]
  generalize (if connected then SwitchStatus.connected else .down) = status
  have hports (s : Switch) : (noteConnection now dpId status s).ports = s.ports :=
    noteConnection_ports dpId status s
  refine ⟨fun x => ?_, persists_updateSwitch n name fun s p hp => by rwa [hports]⟩
  cases x with
  | port e =>
    refine (still_port ?_).noted
    rw [portAt, port?_updateSwitch hports, portAt]
  | switch s =>
    have hswitch := switchAt_upsert (m := n.updateSwitch name (noteConnection now dpId status)) rfl s
    by_cases hs : s = name
    · subst hs
      rw [if_pos rfl] at hswitch
      have hchanges := (congrArg Switch.changes hswitch).trans (noteConnection_changes ..)
      have hstatus := (congrArg Switch.status hswitch).trans (noteConnection_status ..)
      exact .report hstatus (fun heq => hchanges.trans (if_pos heq)) fun hne => hchanges.trans (if_neg hne)
    · rw [if_neg hs] at hswitch
      exact (still_switch hswitch).noted
  | _ => exact Still.noted ⟨rfl, rfl⟩

theorem quiet_reload (n : Network) (name : String) (dpId : Option UInt64) (kind hashes : Option String) :
    Quiet n (reload now name dpId kind hashes n) := by
  unfold reload
  refine quiet_updateSwitch n name (fun s => ?_) (fun s => ?_) fun s => ?_
  · rfl
  · rfl
  · rfl

/-- A refresh moves links alone. -/
theorem still_refreshLinks (n : Network) (w : Wiring) (now : Instant) (hx : ∀ l, x ≠ .link l) :
    Still n (n.refreshLinks w now) x := by
  rw [refreshLinks_eq]
  cases x with
  | link l => exact absurd rfl (hx l)
  | _ => exact ⟨rfl, rfl⟩

theorem become_changes (y : TrackedLink) (s : LinkState) :
    (y.become s now).changes = if y.state = s then y.changes else y.changes.note now := by
  unfold TrackedLink.become
  split <;> rfl

theorem counts_refreshLinks (n : Network) (w : Wiring) (now : Instant) :
    Counts now n (n.refreshLinks w now) where
  noted x := by
    cases x with
    | link l =>
      have hget := get?_refreshLinks n w now l
      have hentry : (n.refreshLinks w now).linkEntry l =
          ((n.refreshLinks w now).links.get? l).getD (.fresh l) := rfl
      by_cases htracks : n.tracks w l = true
      · rw [hget, if_pos htracks, Option.getD_some] at hentry
        have hchanges := (congrArg TrackedLink.changes hentry).trans (become_changes ..)
        have hstate := (congrArg TrackedLink.state hentry).trans (TrackedLink.become_state ..)
        exact .report hstate (fun heq => hchanges.trans (if_pos heq)) fun hne => hchanges.trans (if_neg hne)
      · have hnone : n.links.get? l = none := by
          unfold tracks at htracks
          simp_all [Table.contains]
        have hsame : (n.refreshLinks w now).linkEntry l = n.linkEntry l := by
          rw [hentry, hget, if_neg htracks, linkEntry, hnone]
        exact (still_link hsame).noted
    | _ => exact (still_refreshLinks n w now fun _ => Counted.noConfusion).noted
  persists := by
    have hlinks (l : Link) (hl : n.links.contains l = true) :
        (n.refreshLinks w now).links.contains l = true := by
      rw [contains_refreshLinks, tracks, hl, Bool.or_true]
    rw [refreshLinks_eq] at hlinks ⊢
    exact ⟨fun _ => id, fun _ => id, hlinks, fun _ => id, fun _ => id⟩

theorem quiet_noteStack (n : Network) (e : Endpoint) (s : StackState) :
    Quiet n (n.updatePort e (noteStack · s)) where
  still x := by
    by_cases hx : x = .port e
    · subst hx
      have hport : (n.updatePort e (noteStack · s)).portAt e = noteStack (n.portAt e) s := by
        rw [portAt_updatePort, if_pos rfl]
      exact ⟨(congrArg Port.up hport).trans rfl, (congrArg Port.changes hport).trans rfl⟩
    · exact still_updatePort n _ hx
  persists := persists_updatePort n e _

theorem counts_stackState (n : Network) (e : Endpoint) (code : Int) :
    Counts now n (stackState w now e code n) := by
  rcases stackState_cases w now e code n with heq | ⟨s, heq⟩
  · rw [heq]
    exact (Quiet.refl n).counts
  · rw [heq]
    exact (quiet_noteStack n e s).trans_counts (counts_refreshLinks _ w now)

/-- The member with what is reported of it. -/
def noteMember (now : Instant) (state : Option LacpState) (role : Option LacpRole) (y : EgressMember) :
    EgressMember :=
  if y.state = state.or y.state ∧ y.role = role.or y.role then y
  else { state := state.or y.state, role := role.or y.role, changes := y.changes.note now }

theorem lag_eq (n : Network) (e : Endpoint) (state : Option LacpState) (role : Option LacpRole) :
    lag now e state role n = { n with egress := n.egress.upsert e .silent (noteMember now state role) } := rfl

theorem noteMember_report (state : Option LacpState) (role : Option LacpRole) (y : EgressMember) :
    ((noteMember now state role y).state, (noteMember now state role y).role) =
      (state.or y.state, role.or y.role) := by
  unfold noteMember
  split
  next h => rw [← h.1, ← h.2]
  next => rfl

theorem noteMember_changes (state : Option LacpState) (role : Option LacpRole) (y : EgressMember) :
    (noteMember now state role y).changes =
      if (y.state, y.role) = (state.or y.state, role.or y.role) then y.changes else y.changes.note now := by
  unfold noteMember
  simp only [Prod.mk.injEq]
  split <;> rfl

theorem counts_lag (n : Network) (e : Endpoint) (state : Option LacpState) (role : Option LacpRole) :
    Counts now n (lag now e state role n) := by
  rw [lag_eq]
  refine ⟨fun x => ?_, ⟨fun _ => id, fun _ => id, fun _ => id, fun e' he => ?_, fun _ => id⟩⟩
  · cases x with
    | member e' =>
      have hmember : ({ n with egress := n.egress.upsert e .silent (noteMember now state role) } :
          Network).memberAt e' = if e' = e then noteMember now state role (n.memberAt e) else n.memberAt e' := by
        unfold memberAt
        rw [Table.get?_upsert]
        split <;> rfl
      by_cases he : e' = e
      · subst he
        rw [if_pos rfl] at hmember
        have hchanges := (congrArg EgressMember.changes hmember).trans (noteMember_changes ..)
        have hstate := (congrArg (fun y => (y.state, y.role)) hmember).trans (noteMember_report ..)
        exact .report hstate (fun heq => hchanges.trans (if_pos heq)) fun hne => hchanges.trans (if_neg hne)
      · rw [if_neg he] at hmember
        exact (still_member hmember).noted
    | _ => exact Still.noted ⟨rfl, rfl⟩
  · show (n.egress.upsert e _ _).contains e' = true
    rw [Table.contains_upsert, he, Bool.or_true]

theorem contains_vlanSample (threshold : Option Float) (t : Table UInt16 VlanCounters) (s : Sample)
    {v : UInt16} (h : t.contains v = true) : (vlanSample threshold now t s).contains v = true := by
  unfold vlanSample
  split
  · exact h
  next vid _ =>
    unfold Table.contains at *
    rw [Table.get?_insert]
    split
    · rfl
    · exact h

theorem contains_vlanSamples (threshold : Option Float) (l : List Sample) {t : Table UInt16 VlanCounters}
    {v : UInt16} (h : t.contains v = true) : (l.foldl (vlanSample threshold now) t).contains v = true := by
  induction l generalizing t with
  | nil => exact h
  | cons s r ih => exact ih (contains_vlanSample threshold t s h)

theorem quiet_vlanSamples (n : Network) (threshold : Option Float) (l : List Sample) :
    Quiet n (vlanSamples threshold now l n) where
  still x := by cases x <;> exact ⟨rfl, rfl⟩
  persists := ⟨fun _ => id, fun _ => id, fun _ => id, fun _ => id, fun _ => contains_vlanSamples threshold l⟩

/-- What waits is not watched. -/
theorem quiet_withStaged (n : Network) (s : Option Staged) : Quiet n (n.withStaged s) :=
  ⟨fun x => by cases x <;> exact ⟨rfl, rfl⟩, .of_eq rfl rfl rfl rfl⟩

/-- A topology is put in force before any link is looked at. -/
theorem counts_renewed (n : Network) (now : Instant) (t : Topology) :
    Counts now n { n with topology := renewed n.topology now t } where
  noted x := by
    cases x with
    | links =>
      refine .report (s := t.links) rfl (fun heq => if_neg ?_) fun hne => if_pos hne
      exact fun hne => hne heq
    | root =>
      refine .report (s := (t.root, t.rootHops)) rfl (fun heq => if_neg ?_) fun hne => if_pos ?_
      · obtain ⟨hroot, hhops⟩ := Prod.mk.inj heq
        exact fun hne => hne.elim (· hroot) (· hhops)
      · by_cases hroot : n.topology.applied.root = t.root
        · exact .inr fun hhops => hne (Prod.ext hroot hhops)
        · exact .inl hroot
    | _ => exact Still.noted ⟨rfl, rfl⟩
  persists := .of_eq rfl rfl rfl rfl

theorem counts_applyTopology (n : Network) (w : Wiring) (now : Instant) (t : Topology) :
    Counts now n (n.applyTopology w now t).1 := by
  by_cases h : n.topology.hash? = some t.hash
  · rw [applyTopology_same h]
    exact (Quiet.refl n).counts
  · have hrenewed := counts_renewed n now t
    have hrefresh := counts_refreshLinks ({ n with topology := renewed n.topology now t } : Network) w now
    rw [applyTopology_new h]
    refine ⟨fun x => ?_, hrenewed.persists.trans hrefresh.persists⟩
    -- the topology itself is noted first, and a refresh moves links alone
    cases x with
    | link l =>
      have hstill : Still n { n with topology := renewed n.topology now t } (.link l) := ⟨rfl, rfl⟩
      exact hstill.trans_noted (hrefresh.noted (.link l))
    | _ => exact (hrenewed.noted _).trans_still (still_refreshLinks _ w now fun _ => Counted.noConfusion)

theorem counts_heartbeat (n : Network) (w : Wiring) (window : Nat) (now : Instant) :
    Counts now n (n.heartbeat w window now).1 := by
  unfold heartbeat
  split
  · exact (Quiet.refl n).counts
  next s _ =>
    split
    · exact (quiet_withStaged n none).trans_counts (counts_applyTopology _ w now s.topology)
    · exact (Quiet.refl n).counts

theorem counts_update (config : EngineConfig) (u : Update) (n : Network) :
    Counts now n (u.apply config w now n).network := by
  cases u with
  | portState e up => exact counts_portState n e up
  | learn e mac t => exact (quiet_learn n e mac t).counts
  | expire e mac => exact (quiet_expire n e mac).counts
  | lag e state role => exact counts_lag n e state role
  | stackState e code => exact counts_stackState n e code
  | stage t => exact (quiet_withStaged n _).counts
  | connection s dpId connected => exact counts_connection n s dpId connected
  | reload s dpId kind hashes => exact (quiet_reload n s dpId kind hashes).counts
  | vlanSamples l => exact (quiet_vlanSamples n config.threshold l).counts

end Network
end Fabric
