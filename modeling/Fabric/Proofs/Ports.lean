import Fabric.Proofs.Runs
import Fabric.Proofs.Tables

/-! What updates do to ports and sightings, by lookup. Losing a host and recording one touch the
hosts listed on ports and nothing else of a port, so whatever `f` shows of a port without looking
at its hosts (`Blind f`) comes out of them unchanged. -/

namespace Fabric

theorem Endpoint.eq_iff {e e' : Endpoint} : e = e' ↔ e.switch = e'.switch ∧ e.port = e'.port := by
  cases e; cases e'; simp

theorem Endpoint.ne_of_switch {e e' : Endpoint} (h : ¬ e.switch = e'.switch) : ¬ e = e' :=
  fun he => h (congrArg Endpoint.switch he)

theorem Endpoint.ne_of_port {e e' : Endpoint} (h : ¬ e.port = e'.port) : ¬ e = e' :=
  fun he => h (congrArg Endpoint.port he)

namespace Network

variable {w : Wiring} {now : Instant}

/-! ## Ports by lookup -/

/-- The port, or the one that comes to be at its first mention. -/
def portAt (n : Network) (e : Endpoint) : Port := (n.port? e).getD .fresh

theorem port?_updateSwitch {n : Network} {name : String} {f : Switch → Switch}
    (h : ∀ s, (f s).ports = s.ports) (e : Endpoint) : (n.updateSwitch name f).port? e = n.port? e := by
  simp only [port?, updateSwitch, Table.get?_upsert]
  by_cases hs : e.switch = name
  · subst hs
    cases hg : n.switches.get? e.switch <;> simp [h, Switch.fresh]
  · simp [hs]

theorem port?_updatePorts {n : Network} {name : String} {f : Table UInt32 Port → Table UInt32 Port}
    (e : Endpoint) :
    (n.updateSwitch name fun s => { s with ports := f s.ports }).port? e =
      if e.switch = name then (f (((n.switches.get? name).map Switch.ports).getD ∅)).get? e.port
      else n.port? e := by
  simp only [port?, updateSwitch, Table.get?_upsert]
  by_cases hs : e.switch = name
  · subst hs
    cases hg : n.switches.get? e.switch <;> simp [Switch.fresh]
  · simp [hs]

theorem get?_ports (n : Network) (e : Endpoint) :
    (((n.switches.get? e.switch).map Switch.ports).getD ∅).get? e.port = n.port? e := by
  unfold port?
  cases n.switches.get? e.switch <;> rfl

theorem port?_updatePort (n : Network) (e e' : Endpoint) (f : Port → Port) :
    (n.updatePort e f).port? e' = if e' = e then some (f (n.portAt e)) else n.port? e' := by
  rw [updatePort, port?_updatePorts (f := fun t => t.upsert e.port .fresh f)]
  by_cases hs : e'.switch = e.switch
  · rw [if_pos hs, Table.get?_upsert, get?_ports]
    by_cases hp : e'.port = e.port
    · rw [if_pos hp, if_pos (Endpoint.eq_iff.mpr ⟨hs, hp⟩)]
      rfl
    · rw [if_neg hp, if_neg (Endpoint.ne_of_port hp), ← get?_ports, hs]
  · rw [if_neg hs, if_neg (Endpoint.ne_of_switch hs)]

/-! ## Losing a host -/

theorem forget_none {n : Network} {mac : Mac} {switch : String} (h : n.sighting? mac switch = none) :
    forget w mac switch n = .quiet n := by
  rw [forget, h]

theorem forget_some {n : Network} {mac : Mac} {switch : String} {x : Sighting}
    (h : n.sighting? mac switch = some x) :
    (forget w mac switch n).network = { n with
      hosts := withoutSighting n.hosts mac switch
      hostChanges := n.hostChanges + 1
      switches := withoutMac n.switches ⟨switch, x.port⟩ mac } := by
  rw [forget, h]

theorem port?_withoutMac (n : Network) (place : Endpoint) (mac : Mac) (hosts : Table Mac Host)
    (changes : Nat) (e : Endpoint) :
    ({ n with hosts := hosts, hostChanges := changes,
              switches := withoutMac n.switches place mac } : Network).port? e =
      if e = place then (n.port? e).map fun p => { p with macs := p.macs.erase mac }
      else n.port? e := by
  simp only [port?, withoutMac, Table.get?_modify]
  by_cases hs : e.switch = place.switch
  · rw [if_pos hs, hs]
    cases hg : n.switches.get? place.switch with
    | none => by_cases he : e = place <;> simp [he]
    | some s =>
      simp only [Option.map_some, Option.bind_some, Table.get?_modify]
      by_cases hp : e.port = place.port
      · rw [if_pos hp, if_pos (Endpoint.eq_iff.mpr ⟨hs, hp⟩), hp]
      · rw [if_neg hp, if_neg (Endpoint.ne_of_port hp)]
  · rw [if_neg hs, if_neg (Endpoint.ne_of_switch hs)]

theorem sighting?_withoutSighting (hosts : Table Mac Host) (mac m : Mac) (switch s : String) :
    ((withoutSighting hosts mac switch).get? m).bind (·.sightings.get? s) =
      if m = mac ∧ s = switch then none else (hosts.get? m).bind (·.sightings.get? s) := by
  unfold withoutSighting
  cases hm : hosts.get? mac with
  | none =>
    by_cases h : m = mac
    · subst h; simp [hm]
    · simp [h]
  | some h =>
    simp only
    split
    next hrest =>
      rw [Table.isEmpty_iff] at hrest
      by_cases he : m = mac
      · subst he
        have := hrest s
        by_cases hs : s = switch <;> simp_all
      · simp [he]
    next =>
      by_cases he : m = mac
      · subst he
        by_cases hs : s = switch <;> simp [hm, hs]
      · simp [he]

theorem sighting?_forget (n : Network) (mac m : Mac) (switch s : String) :
    (forget w mac switch n).network.sighting? m s =
      if m = mac ∧ s = switch then none else n.sighting? m s := by
  cases h : n.sighting? mac switch with
  | none =>
    rw [forget_none h]
    by_cases he : m = mac ∧ s = switch
    · obtain ⟨rfl, rfl⟩ := he
      simp [h]
    · simp [he]
  | some x =>
    rw [forget_some h]
    exact sighting?_withoutSighting n.hosts mac m switch s

theorem sighting?_forgetAll (macs : List Mac) (switch : String) (n : Network) (m : Mac) (s : String) :
    (forgetAll w macs switch n).network.sighting? m s =
      if m ∈ macs ∧ s = switch then none else n.sighting? m s := by
  induction macs generalizing n with
  | nil => simp [forgetAll, Outcome.forEach]
  | cons mac r ih =>
    rw [forgetAll, Outcome.forEach_cons, Outcome.andThen_network]
    refine (ih _).trans ?_
    rw [sighting?_forget]
    by_cases hr : m ∈ r ∧ s = switch
    · simp [hr]
    · by_cases hm : m = mac <;> by_cases hs : s = switch <;> simp_all

/-! ## Recording a host -/

/-- The port of the switch that the host was on, when that was another one. -/
def leftPort (n : Network) (e : Endpoint) (mac : Mac) : Option UInt32 :=
  ((n.sighting? mac e.switch).map (·.port)).filter (· ≠ e.port)

theorem leftPort_ne (n : Network) (e : Endpoint) (mac : Mac) : n.leftPort e mac ≠ some e.port := by
  intro h
  have := (Option.filter_eq_some_iff.mp h).2
  simp at this

theorem sightings_getD (n : Network) (mac : Mac) (s : String) :
    ((n.hosts.get? mac).getD .fresh).sightings.get? s = n.sighting? mac s := by
  unfold sighting?
  cases n.hosts.get? mac <;> rfl

theorem get?_movedTo {ports : Table UInt32 Port} {mac : Mac} {left : Option UInt32} {p : UInt32}
    (h : left ≠ some p) (q : UInt32) :
    (movedTo ports mac left p).get? q =
      if q = p then
        some { (ports.get? p).getD .fresh with macs := ((ports.get? p).getD .fresh).macs.add mac }
      else if left = some q then
        some { (ports.get? q).getD .fresh with macs := ((ports.get? q).getD .fresh).macs.erase mac }
      else ports.get? q := by
  cases left with
  | none => simp [movedTo, Table.get?_upsert]
  | some old =>
    have hp : ¬ p = old := fun hp => h (by rw [hp])
    simp only [movedTo, Table.get?_upsert, if_neg hp, Option.some.injEq]
    by_cases hq : q = p
    · simp [hq]
    · by_cases ho : old = q
      · subst ho; simp [hq]
      · simp [hq, ho, Ne.symm ho]

theorem port?_record (n : Network) (e e' : Endpoint) (mac : Mac) (t : Traits) :
    (record w now e mac t n).network.port? e' =
      if e' = e then some { n.portAt e with macs := (n.portAt e).macs.add mac }
      else if e'.switch = e.switch ∧ n.leftPort e mac = some e'.port then
        some { n.portAt e' with macs := (n.portAt e').macs.erase mac }
      else n.port? e' := by
  have hleft : ((((n.hosts.get? mac).getD .fresh).sightings.get? e.switch).map (·.port)).filter
      (· ≠ e.port) = n.leftPort e mac := by rw [sightings_getD, leftPort]
  simp only [record, hleft]
  rw [port?_updatePorts (f := fun t => movedTo t mac (n.leftPort e mac) e.port)]
  by_cases hs : e'.switch = e.switch
  · rw [if_pos hs, get?_movedTo (leftPort_ne n e mac)]
    dsimp only
    rw [get?_ports n e, ← hs, get?_ports n e']
    by_cases hp : e'.port = e.port
    · have he : e' = e := Endpoint.eq_iff.mpr ⟨hs, hp⟩
      simp [he, portAt]
    · have he := Endpoint.ne_of_port hp
      simp [hp, he, portAt]
  · have he := Endpoint.ne_of_switch hs
    simp only [if_neg he, hs, false_and, if_false]
    rfl

theorem sighting?_record (n : Network) (e : Endpoint) (mac m : Mac) (t : Traits) (s : String) :
    (record w now e mac t n).network.sighting? m s =
      if m = mac ∧ s = e.switch then some ⟨e.port, now⟩ else n.sighting? m s := by
  show ((n.hosts.insert mac _).get? m).bind _ = _
  rw [Table.get?_insert]
  by_cases hm : m = mac
  · subst hm
    by_cases hs : s = e.switch
    · simp [seen, hs]
    · simp [seen, hs, sightings_getD]
  · simp [hm, sighting?]

/-! ## Authorizing a host -/

theorem authorize_ok {n n' : Network} {mac : Mac} {a : Authorization} (h : authorize mac a n = .ok n') :
    ∃ old, n.hosts.get? mac = some old ∧
      n' = { n with hosts := n.hosts.insert mac { old with authorization := some a } } := by
  unfold authorize at h
  cases hm : n.hosts.get? mac with
  | none => simp [hm] at h
  | some old =>
    simp only [hm, Except.ok.injEq] at h
    exact ⟨old, rfl, h.symm⟩

/-! ## What a port shows beside its hosts -/

section View
variable {α : Type} {f : Port → Option α}

/-- `f` finds nothing on a port that was only mentioned, and does not look at its hosts. -/
structure Blind (f : Port → Option α) : Prop where
  fresh : f .fresh = none
  macs : ∀ p m, f { p with macs := m } = f p

def view (n : Network) (f : Port → Option α) (e : Endpoint) : Option α := (n.port? e).bind f

theorem Blind.portAt (hf : Blind f) (n : Network) (e : Endpoint) : f (n.portAt e) = n.view f e := by
  unfold Network.portAt view
  cases n.port? e with
  | none => exact hf.fresh
  | some p => rfl

theorem view_forget (hf : Blind f) (n : Network) (mac : Mac) (switch : String) (e : Endpoint) :
    (forget w mac switch n).network.view f e = n.view f e := by
  cases h : n.sighting? mac switch with
  | none => rw [forget_none h]; rfl
  | some x =>
    rw [forget_some h, view, port?_withoutMac, view]
    split
    · cases n.port? e <;> simp [hf.macs]
    · rfl

theorem view_forgetAll (hf : Blind f) (n : Network) (macs : List Mac) (switch : String) (e : Endpoint) :
    (forgetAll w macs switch n).network.view f e = n.view f e :=
  Outcome.forEach_keeps (P := fun m => m.view f e = n.view f e)
    (fun mac _ m hm => (view_forget hf m mac switch e).trans hm) rfl

theorem view_record (hf : Blind f) (n : Network) (e e' : Endpoint) (mac : Mac) (t : Traits) :
    (record w now e mac t n).network.view f e' = n.view f e' := by
  rw [view, port?_record]
  split
  next h => rw [h, Option.bind_some, hf.macs, hf.portAt]
  next =>
    split
    · rw [Option.bind_some, hf.macs, hf.portAt]
    · rfl

theorem view_learn (hf : Blind f) (n : Network) (e e' : Endpoint) (mac : Mac) (t : Traits) :
    (learn w now e mac t n).network.view f e' = n.view f e' := by
  rw [learn, Outcome.andThen_network, view_record hf, view_forgetAll hf]

theorem view_expire (hf : Blind f) (n : Network) (e e' : Endpoint) (mac : Mac) :
    (expire w e mac n).network.view f e' = n.view f e' := by
  unfold expire
  split
  · exact view_forget hf n mac e.switch e'
  · rfl

theorem view_clearPort (hf : Blind f) (n : Network) (e e' : Endpoint) :
    (clearPort w e n).network.view f e' = n.view f e' := by
  unfold clearPort
  split
  · rfl
  · exact view_forgetAll hf n _ e.switch e'

theorem view_updateSwitch {n : Network} {name : String} {g : Switch → Switch}
    (h : ∀ s, (g s).ports = s.ports) (e : Endpoint) :
    (n.updateSwitch name g).view f e = n.view f e := by
  rw [view, port?_updateSwitch h, view]

theorem view_connection (n : Network) (name : String) (dpId : Option UInt64) (connected : Bool)
    (e : Endpoint) : (connection now name dpId connected n).view f e = n.view f e := by
  unfold connection
  refine view_updateSwitch (fun s => ?_) e
  generalize (if connected then SwitchStatus.connected else .down) = status
  by_cases h : s.status = some status <;> simp [h]

theorem view_reload (n : Network) (name : String) (dpId : Option UInt64)
    (kind hashes : Option String) (e : Endpoint) :
    (reload now name dpId kind hashes n).view f e = n.view f e := by
  unfold reload
  refine view_updateSwitch (fun s => ?_) e
  rfl

theorem view_updatePort (n : Network) (e e' : Endpoint) (g : Port → Port) :
    (n.updatePort e g).view f e' = if e' = e then f (g (n.portAt e)) else n.view f e' := by
  rw [view, port?_updatePort]
  split <;> rfl

/-- The port with news of it noted. -/
def notePort (p : Port) (now : Instant) (up : Bool) : Port :=
  { p with up := some up, changes := p.changes.note now }

theorem portState_same {n : Network} {e : Endpoint} {up : Bool}
    (h : (n.port? e).any (·.up = some up) = true) : portState w now e up n = .quiet n := by
  rw [portState, if_pos h]

theorem portState_news {n : Network} {e : Endpoint} {up : Bool}
    (h : ¬ (n.port? e).any (·.up = some up) = true) :
    portState w now e up n =
      Outcome.andThen ⟨n.updatePort e (notePort · now up), [.portState e up]⟩ fun n =>
        if !up && isAccess w e then clearPort w e n else .quiet n := by
  rw [portState, if_neg h]
  rfl

theorem view_portState_news (hf : Blind f) {n : Network} {e : Endpoint} {up : Bool}
    (h : ¬ (n.port? e).any (·.up = some up) = true) (e' : Endpoint) :
    (portState w now e up n).network.view f e' =
      if e' = e then f (notePort (n.portAt e) now up) else n.view f e' := by
  rw [portState_news h, Outcome.andThen_network]
  dsimp only
  split
  · rw [view_clearPort hf, view_updatePort]
  · exact view_updatePort n e e' _

end View

/-! ## Stack states and port states -/

/-- Whether the port is up, when that was ever reported. -/
def upState? (n : Network) (e : Endpoint) : Option Bool := n.view (·.up) e

theorem blind_stack : Blind Port.stack := ⟨rfl, fun _ _ => rfl⟩

theorem blind_up : Blind Port.up := ⟨rfl, fun _ _ => rfl⟩

theorem stackState?_portState (n : Network) (e e' : Endpoint) (up : Bool) :
    (portState w now e up n).network.stackState? e' = n.stackState? e' := by
  by_cases h : (n.port? e).any (·.up = some up) = true
  · rw [portState_same h]; rfl
  · show (portState w now e up n).network.view Port.stack e' = n.view Port.stack e'
    rw [view_portState_news blind_stack h]
    split
    next he => rw [he, ← blind_stack.portAt]; rfl
    next => rfl

theorem any_up_iff {n : Network} {e : Endpoint} {up : Bool} :
    (n.port? e).any (·.up = some up) = true ↔ n.upState? e = some up := by
  unfold upState? view
  cases n.port? e <;> simp

theorem upState?_portState (n : Network) (e e' : Endpoint) (up : Bool) :
    (portState w now e up n).network.upState? e' = if e' = e then some up else n.upState? e' := by
  by_cases h : (n.port? e).any (·.up = some up) = true
  · rw [portState_same h]
    split
    next he => rw [he]; exact any_up_iff.mp h
    next => rfl
  · exact view_portState_news blind_up h e'

end Network
end Fabric
