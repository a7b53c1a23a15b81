import Fabric.Proofs.Learning
import Fabric.Proofs.LevelTriggered

/-! What is heard twice. A report that says how something is, and not that something has happened once
more, may come any number of times: the first time makes it so, whatever else that takes
(`Assertion.holds_perform`), and once it is so the report changes nothing any more, save that a host was
seen again (`Assertion.perform_of_holds`). The second half takes what is kept along every run: that a
host is listed where it is seen (`Filed`), and that no link has an old state (`Level`). -/

namespace Fabric

open Network

/-- What is said of how things are. -/
inductive Assertion where
  | portState (place : Endpoint) (up : Bool)
  | learn (place : Endpoint) (mac : Mac) (traits : Traits)
  | expire (place : Endpoint) (mac : Mac)
  | lag (place : Endpoint) (state : Option LacpState) (role : Option LacpRole)
  | stackState (place : Endpoint) (code : Int)
  | connection (switch : String) (dpId : Option UInt64) (connected : Bool)
  | wiring (w : Wiring)
  | authorization (mac : Mac) (a : Authorization)

/-- What is told, if anything, is known. -/
def Known {α : Type} (told known : Option α) : Prop := told.or known = known

theorem known_or {α : Type} (told known : Option α) : Known told (told.or known) := by
  cases told <;> rfl

/-- The host has the address and the VLAN that a learn says it has. -/
structure Host.Has (h : Host) (t : Traits) : Prop where
  ip : ∀ ip, t.ip.filter (· ≠ "") = some ip → h.ips.contains ip = true
  vid : Known t.vid h.vid

/-- The network with another time at which the switch saw the host. -/
def Network.retime (n : Network) (mac : Mac) (switch : String) (t : Instant) : Network :=
  { n with hosts := n.hosts.modify mac fun h =>
      { h with sightings := h.sightings.modify switch fun x => { x with learnedAt := t } } }

namespace Assertion

/-- To say it at a time. -/
def operation (now : Instant) : Assertion → Operation
  | portState e up => .update now (.portState e up)
  | learn e mac t => .update now (.learn e mac t)
  | expire e mac => .update now (.expire e mac)
  | lag e state role => .update now (.lag e state role)
  | stackState e code => .update now (.stackState e code)
  | connection s dpId connected => .update now (.connection s dpId connected)
  | wiring w => .configure now w
  | authorization mac a => .authorize mac a

/-- Is it so? A code that means nothing and a host that nobody knows say nothing. -/
def Holds (g : Engine) : Assertion → Prop
  | portState e up => g.network.upState? e = some up
  | learn e mac t => g.network.seenOn mac e.switch = some e.port ∧ g.network.displaced g.wiring e mac = [] ∧
      ∃ h, g.network.hosts.get? mac = some h ∧ h.Has t
  | expire e mac => g.network.seenOn mac e.switch ≠ some e.port
  | lag e state role => ∃ y, g.network.egress.get? e = some y ∧ Known state y.state ∧ Known role y.role
  | stackState e code => ∀ s ∈ StackState.ofCode? code, g.network.stackState? e = some s
  | connection name dpId connected => ∃ s, g.network.switches.get? name = some s ∧ Known dpId s.dpId ∧
      s.status = some (if connected then .connected else .down)
  | wiring w => g.wiring = w
  | authorization mac a => ∀ h ∈ g.network.hosts.get? mac, h.authorization = some a

/-- What becomes of a network when it is said what is so already. -/
def renew (a : Assertion) (now : Instant) (n : Network) : Network :=
  match a with
  | learn e mac _ => n.retime mac e.switch now
  | _ => n

end Assertion

namespace Network

variable {n : Network} {w : Wiring} {now : Instant} {e : Endpoint} {mac : Mac} {t : Traits}

theorem any_sighting_iff {s : String} {p : UInt32} :
    (n.sighting? mac s).any (·.port = p) = true ↔ n.seenOn mac s = some p := by
  unfold seenOn
  cases n.sighting? mac s <;> simp

/-! ## What is so already -/

theorem updateSwitch_of_get? {name : String} {s : Switch} {f : Switch → Switch}
    (h : n.switches.get? name = some s) (hf : f s = s) : n.updateSwitch name f = n := by
  rw [updateSwitch, Table.upsert_of_get? h hf]

theorem noteConnection_known {dpId : Option UInt64} {status : SwitchStatus} {s : Switch} (hid : Known dpId s.dpId)
    (hstatus : s.status = some status) : noteConnection now dpId status s = s := by
  rw [noteConnection, if_pos hstatus, hid]

theorem noteMember_known {state : Option LacpState} {role : Option LacpRole} {y : EgressMember}
    (hstate : Known state y.state) (hrole : Known role y.role) : noteMember now state role y = y :=
  if_pos ⟨hstate.symm, hrole.symm⟩

theorem refreshLinks_of_level (h : Level w n) (now : Instant) : n.refreshLinks w now = n := by
  have hlinks : (n.refreshLinks w now).links = n.links := by
    refine Table.ext_get? fun l => ?_
    -- there is no link to track that is not tracked
    have htracks : n.tracks w l = n.links.contains l := by
      rw [Bool.eq_iff_iff, tracks, Bool.or_eq_true, Bool.or_eq_true]
      exact ⟨fun hl => hl.elim (·.elim (h.wired l) (h.applied l)) id, .inr⟩
    rw [get?_refreshLinks, htracks, linkEntry, Table.contains]
    cases hl : n.links.get? l with
    | none => rfl
    | some x => exact congrArg some (TrackedLink.become_of_eq (h.current l x hl) now)
  rw [refreshLinks_eq, hlinks]

/-- A port that lists the host lists it still when the host is put there. -/
theorem movedTo_listed (h : n.lists e mac = true) :
    (n.updateSwitch e.switch fun s => { s with ports := movedTo s.ports mac none e.port }) = n := by
  obtain ⟨p, hp, hmac⟩ : ∃ p, n.port? e = some p ∧ p.macs.contains mac = true := by
    -- a port that is not there lists nobody
    unfold lists portAt at h
    cases hp : n.port? e with
    | none =>
      rw [hp] at h
      cases h
    | some p =>
      rw [hp] at h
      exact ⟨p, rfl, h⟩
  obtain ⟨s, hs, hport⟩ := Option.bind_eq_some_iff.mp hp
  have hadd : p.macs.add mac = p.macs := by
    obtain ⟨u, hu⟩ := Table.contains_iff.mp hmac
    exact Table.insert_of_get? hu
  have hports : movedTo s.ports mac none e.port = s.ports := by
    rw [movedTo]
    refine Table.upsert_of_get? hport ?_
    rw [hadd]
  exact updateSwitch_of_get? hs (congrArg (fun ports => { s with ports := ports }) hports)

theorem seen_known {h : Host} {x : Instant} (hthere : h.sightings.get? e.switch = some ⟨e.port, x⟩)
    (hhas : h.Has t) :
    seen h now e t = { h with sightings := h.sightings.modify e.switch fun x => { x with learnedAt := now } } := by
  have hips : (seen h now e t).ips = h.ips := by
    have hip := hhas.ip
    unfold seen
    cases hfilter : t.ip.filter (· ≠ "") with
    | none => rfl
    | some ip =>
      obtain ⟨u, hu⟩ := Table.contains_iff.mp (hip ip hfilter)
      exact Table.insert_of_get? hu
  have hseen : seen h now e t = { h with
      sightings := h.sightings.insert e.switch ⟨e.port, now⟩
      ips := (seen h now e t).ips
      vid := t.vid.or h.vid } := rfl
  rw [hseen, hips, hhas.vid, Table.modify_of_get? hthere]

/-- A host that is recorded where it is moves nowhere. -/
theorem record_there {h : Host} {x : Instant} (hlisted : n.lists e mac = true)
    (hhost : n.hosts.get? mac = some h) (hthere : h.sightings.get? e.switch = some ⟨e.port, x⟩)
    (hhas : h.Has t) : (record w now e mac t n).network = n.retime mac e.switch now := by
  have hleft : ((some e.port).filter fun p => decide (p ≠ e.port)) = none := by simp [Option.filter_some]
  have hrecord : (record w now e mac t n).network =
      (n.retime mac e.switch now).updateSwitch e.switch fun s =>
        { s with ports := movedTo s.ports mac none e.port } := by
    simp only [record, hhost, Option.getD_some, hthere, Option.map_some, hleft, seen_known hthere hhas]
    rw [retime, Table.modify_of_get? hhost]
    simp
  rw [hrecord]
  exact movedTo_listed hlisted

theorem learn_there {h : Host} (filed : n.Filed) (hseen : n.seenOn mac e.switch = some e.port)
    (halone : n.displaced w e mac = []) (hhost : n.hosts.get? mac = some h) (hhas : h.Has t) :
    (learn w now e mac t n).network = n.retime mac e.switch now := by
  obtain ⟨x, hx, hport⟩ := Option.map_eq_some_iff.mp hseen
  have hthere : h.sightings.get? e.switch = some ⟨e.port, x.learnedAt⟩ := by
    rw [sighting?, hhost] at hx
    rw [← hport]
    exact hx
  rw [learn_network, halone]
  exact record_there ((filed.listed mac e).mpr hseen) hhost hthere hhas

theorem authorize_known {a : Authorization} (h : ∀ h ∈ n.hosts.get? mac, h.authorization = some a) :
    (authorize mac a n).toOption.getD n = n := by
  unfold authorize
  cases hhost : n.hosts.get? mac with
  | none => rfl
  | some old =>
    have hsame : { old with authorization := some a } = old := by rw [← h old hhost]
    show { n with hosts := n.hosts.insert mac { old with authorization := some a } } = n
    rw [hsame, Table.insert_of_get? hhost]

/-! ## What is made so -/

theorem stackState?_refreshLinks (n : Network) (w : Wiring) (now : Instant) (e : Endpoint) :
    (n.refreshLinks w now).stackState? e = n.stackState? e := by
  rw [refreshLinks_eq]
  rfl

theorem stackState_made {code : Int} {s : StackState} (h : StackState.ofCode? code = some s) (n : Network) :
    (stackState w now e code n).stackState? e = some s := by
  simp only [stackState, h]
  split
  next hs => exact hs
  next =>
    rw [stackState?_refreshLinks]
    show ((n.updatePort e (noteStack · s)).port? e).bind _ = _
    rw [port?_updatePort, if_pos rfl]
    rfl

theorem seenOn_expire (n : Network) : (expire w e mac n).network.seenOn mac e.switch ≠ some e.port := by
  unfold expire
  split
  next => simp [seenOn_forget]
  next h => exact mt any_sighting_iff.mpr h

theorem noteConnection_knows (dpId : Option UInt64) (status : SwitchStatus) (s : Switch) :
    Known dpId (noteConnection now dpId status s).dpId := by
  unfold noteConnection
  split <;> exact known_or dpId s.dpId

theorem noteMember_makes (state : Option LacpState) (role : Option LacpRole) (y : EgressMember) :
    Known state (noteMember now state role y).state ∧ Known role (noteMember now state role y).role := by
  have hreport : ((noteMember now state role y).state, (noteMember now state role y).role) =
      (state.or y.state, role.or y.role) := noteMember_report state role y
  obtain ⟨hstate, hrole⟩ := Prod.mk.inj hreport
  rw [hstate, hrole]
  exact ⟨known_or state y.state, known_or role y.role⟩

theorem seen_has (h : Host) : (seen h now e t).Has t := by
  refine ⟨fun ip hip => ?_, known_or t.vid h.vid⟩
  have hips : (seen h now e t).ips = h.ips.add ip := by
    unfold seen
    rw [hip]
  rw [hips, KeySet.contains_add]
  simp

theorem authorization_made {a : Authorization} {h : Host}
    (hh : ((authorize mac a n).toOption.getD n).hosts.get? mac = some h) : h.authorization = some a := by
  unfold authorize at hh
  cases hhost : n.hosts.get? mac with
  | none =>
    rw [hhost] at hh
    exact absurd (hhost.symm.trans hh) nofun
  | some old =>
    rw [hhost] at hh
    cases (Table.get?_insert_self ..).symm.trans hh
    rfl

end Network

namespace Assertion

variable {g : Engine} {now : Instant}

/-! ## Both halves -/

theorem holds_update {a : Assertion} {u : Update} (hop : a.operation now = .update now u)
    (h : a.Holds { g with network := (u.apply g.config g.wiring now g.network).network }) :
    a.Holds (g.perform (a.operation now)).1 := by
  rw [hop, Engine.perform, Engine.update_eq]
  exact h

/-- Whatever is said is so afterwards. -/
theorem holds_perform (filed : g.network.Filed) (a : Assertion) (now : Instant) :
    a.Holds (g.perform (a.operation now)).1 := by
  cases a with
  | portState e up =>
    refine holds_update rfl ?_
    show (Network.portState g.wiring now e up g.network).network.upState? e = some up
    rw [upState?_portState, if_pos rfl]
  | learn e mac t =>
    refine holds_update rfl ⟨?_, ?_, ?_⟩
    · show (Network.learn g.wiring now e mac t g.network).network.seenOn mac e.switch = some e.port
      rw [seenOn_learn, if_pos ⟨rfl, rfl⟩]
    · refine List.eq_nil_iff_forall_not_mem.mpr fun m hm => ?_
      obtain ⟨haccess, hat, hne⟩ := mem_displaced.mp hm
      have hlearned : Learned g.wiring now e mac g.network (Network.learn g.wiring now e mac t g.network).network :=
        learn_learned filed e mac t
      exact hne (List.mem_singleton.mp (hlearned.alone haccess ▸ hat))
    · exact ⟨_, Table.get?_insert_self .., seen_has _⟩
  | expire e mac => exact holds_update rfl (seenOn_expire g.network)
  | lag e state role =>
    refine holds_update rfl ⟨_, (Table.get?_upsert ..).trans (if_pos rfl), ?_⟩
    generalize (g.network.egress.get? e).getD .silent = y
    exact noteMember_makes state role y
  | stackState e code => exact holds_update rfl fun s hs => stackState_made hs g.network
  | connection name dpId connected =>
    refine holds_update rfl ?_
    show Holds { g with network := Network.connection now name dpId connected g.network } _
    rw [connection_eq]
    exact ⟨_, (Table.get?_upsert ..).trans (if_pos rfl), noteConnection_knows .., noteConnection_status ..⟩
  | wiring w => rfl
  | authorization mac a =>
    show Holds (g.perform (.authorize mac a)).1 (.authorization mac a)
    rw [Engine.perform_authorize]
    exact fun h hh => authorization_made hh

theorem perform_update {u : Update} {f : Network → Network}
    (h : (u.apply g.config g.wiring now g.network).network = f g.network) :
    (g.perform (.update now u)).1 = { g with network := f g.network } := by
  rw [Engine.perform, Engine.update_eq, h]

/-- What is so already changes nothing when it is said. -/
theorem perform_of_holds {a : Assertion} (filed : g.network.Filed) (level : Level g.wiring g.network)
    (h : a.Holds g) (now : Instant) :
    (g.perform (a.operation now)).1 = { g with network := a.renew now g.network } := by
  cases a with
  | portState e up => exact perform_update (congrArg Outcome.network (portState_same (any_up_iff.mpr h)))
  | learn e mac t =>
    obtain ⟨hseen, halone, host, hhost, hhas⟩ := h
    exact perform_update (learn_there filed hseen halone hhost hhas)
  | expire e mac =>
    have hgone : ¬ (g.network.sighting? mac e.switch).any (·.port = e.port) = true := mt any_sighting_iff.mp h
    exact perform_update (congrArg Outcome.network (if_neg hgone))
  | lag e state role =>
    obtain ⟨y, hy, hstate, hrole⟩ := h
    have hsame : g.network.egress.upsert e .silent (noteMember now state role) = g.network.egress :=
      Table.upsert_of_get? hy (noteMember_known hstate hrole)
    exact perform_update (congrArg (fun egress => { g.network with egress := egress }) hsame)
  | stackState e code =>
    refine perform_update (f := id) ?_
    show Network.stackState g.wiring now e code g.network = g.network
    unfold Network.stackState
    cases hs : StackState.ofCode? code with
    | none => rfl
    | some s => exact if_pos (h s hs)
  | connection name dpId connected =>
    obtain ⟨s, hs, hid, hstatus⟩ := h
    exact perform_update (updateSwitch_of_get? hs (noteConnection_known hid hstatus))
  | wiring w =>
    obtain rfl : g.wiring = w := h
    show { g with network := g.network.refreshLinks g.wiring now } = g
    rw [refreshLinks_of_level level]
  | authorization mac a =>
    show (g.perform (.authorize mac a)).1 = g
    rw [Engine.perform_authorize, authorize_known h]

end Assertion

/-- At any time, what is said of how things are is so afterwards, and to say it again changes nothing,
whenever that is, but for the time of a host that is learned again: that is the later time. -/
theorem Engine.run_repeated (config : EngineConfig) (ops : List Operation) (a : Assertion)
    (now later : Instant) :
    let g := ((fresh config).run ops).1
    let once := (g.perform (a.operation now)).1
    a.Holds once ∧
      (once.perform (a.operation later)).1 = { once with network := a.renew later once.network } := by
  intro g once
  have hfiled : g.network.Filed := Filed.kept.run config ops
  have hlevel : Level g.wiring g.network := Level.kept.run config ops
  have hholds : a.Holds once := a.holds_perform hfiled now
  exact ⟨hholds, Assertion.perform_of_holds (Filed.kept.perform (a.operation now) g hfiled)
    (Level.kept.perform (a.operation now) g hlevel) hholds later⟩

end Fabric
