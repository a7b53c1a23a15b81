import Fabric.Proofs.Ports
import Fabric.Proofs.Relink

/-! The stack side of the network, that is its link table and its topology, apart from the rest.
Updates about ports, hosts, egress and VLANs neither read nor write it (`apply_restack`), and a
network that has every configured link in its table goes through all updates as one that has
them not, up to those entries (`apply_enroll`). -/

namespace Fabric

namespace Network

variable {config : EngineConfig} {w : Wiring} {now : Instant}

/-! ## Updates that are not about the stack -/

def restack (links : Table Link TrackedLink) (t : TopologyStatus) (n : Network) : Network :=
  { n with links := links, topology := t }

section Restack
variable (links : Table Link TrackedLink) (t : TopologyStatus)

theorem forget_restack (mac : Mac) (switch : String) (n : Network) :
    forget w mac switch (n.restack links t) = (forget w mac switch n).map (restack links t) := by
  have h : (n.restack links t).sighting? mac switch = n.sighting? mac switch := rfl
  rw [forget, forget, h]
  cases n.sighting? mac switch <;> rfl

theorem forgetAll_restack (macs : List Mac) (switch : String) (n : Network) :
    forgetAll w macs switch (n.restack links t) = (forgetAll w macs switch n).map (restack links t) :=
  Outcome.forEach_comm (fun mac _ n => forget_restack links t mac switch n) n

theorem clearPort_restack (e : Endpoint) (n : Network) :
    clearPort w e (n.restack links t) = (clearPort w e n).map (restack links t) := by
  have h : (n.restack links t).macsAt e = n.macsAt e := rfl
  rw [clearPort, clearPort, h]
  cases n.macsAt e with
  | nil => rfl
  | cons mac r => exact forgetAll_restack links t (mac :: r) e.switch n

theorem portState_restack (e : Endpoint) (up : Bool) (n : Network) :
    portState w now e up (n.restack links t) = (portState w now e up n).map (restack links t) := by
  have h : (n.restack links t).port? e = n.port? e := rfl
  by_cases hs : (n.port? e).any (·.up = some up) = true
  · rw [portState_same hs, portState_same (h ▸ hs)]
    rfl
  · rw [portState_news hs, portState_news (h ▸ hs)]
    show ((Outcome.mk (n.updatePort e (notePort · now up)) [.portState e up]).map
      (restack links t)).andThen _ = _
    refine Outcome.map_andThen_comm ?_
    dsimp only
    split
    · exact clearPort_restack links t e _
    · rfl

theorem learn_restack (e : Endpoint) (mac : Mac) (x : Traits) (n : Network) :
    learn w now e mac x (n.restack links t) = (learn w now e mac x n).map (restack links t) := by
  have h : (n.restack links t).macsAt e = n.macsAt e := rfl
  rw [learn, learn, h, forgetAll_restack]
  exact Outcome.map_andThen_comm rfl

theorem expire_restack (e : Endpoint) (mac : Mac) (n : Network) :
    expire w e mac (n.restack links t) = (expire w e mac n).map (restack links t) := by
  have h : (n.restack links t).sighting? mac e.switch = n.sighting? mac e.switch := rfl
  rw [expire, expire, h]
  split
  · exact forget_restack links t mac e.switch n
  · rfl

end Restack
end Network

open Network

/-- Is it about the stack? -/
def Update.isStack : Update → Bool
  | .stackState _ _ | .stage _ => true
  | _ => false

namespace Update

variable (config : EngineConfig) (w : Wiring) (now : Instant) {u : Update}

theorem apply_restack (hu : u.isStack = false) (links : Table Link TrackedLink) (t : TopologyStatus)
    (n : Network) :
    u.apply config w now (n.restack links t) = (u.apply config w now n).map (restack links t) := by
  cases u with
  | portState e up => exact portState_restack links t e up n
  | learn e mac x => exact learn_restack links t e mac x n
  | expire e mac => exact expire_restack links t e mac n
  | stackState | stage => cases hu
  | lag | connection | reload | vlanSamples => rfl

/-- What does not read the stack does not write it. -/
theorem apply_eq_restack (hu : u.isStack = false) (n : Network) :
    (u.apply config w now n).network =
      (u.apply config w now n).network.restack n.links n.topology :=
  congrArg Outcome.network (apply_restack config w now hu n.links n.topology n)

theorem links_apply (hu : u.isStack = false) (n : Network) :
    (u.apply config w now n).network.links = n.links := by
  rw [apply_eq_restack config w now hu]; rfl

theorem topology_apply (hu : u.isStack = false) (n : Network) :
    (u.apply config w now n).network.topology = n.topology := by
  rw [apply_eq_restack config w now hu]; rfl

theorem stackState?_apply (hu : u.isStack = false) (n : Network) (e : Endpoint) :
    (u.apply config w now n).network.stackState? e = n.stackState? e := by
  cases u with
  | portState e' up => exact stackState?_portState n e' e up
  | learn e' mac x => exact view_learn blind_stack n e' e mac x
  | expire e' mac => exact view_expire blind_stack n e' e mac
  | connection s dpId connected => exact view_connection n s dpId connected e
  | reload s dpId kind hashes => exact view_reload n s dpId kind hashes e
  | lag | vlanSamples => rfl
  | stackState | stage => cases hu

end Update

namespace Network

variable {config : EngineConfig} {w : Wiring} {now : Instant}

/-! ## Configured links -/

/-- The link table with every configured link in it; one that was missing starts out. -/
def enrolled (w : Wiring) (links : Table Link TrackedLink) : Table Link TrackedLink :=
  (KeySet.union w.stackLinks (links.map fun _ _ => ())).map fun l _ => (links.get? l).getD (.fresh l)

def enroll (w : Wiring) (n : Network) : Network := { n with links := enrolled w n.links }

theorem get?_enrolled (w : Wiring) (links : Table Link TrackedLink) (l : Link) :
    (enrolled w links).get? l =
      if w.stackLinks.contains l || links.contains l then some ((links.get? l).getD (.fresh l))
      else none := by
  have hmap : (links.map fun _ _ => ()).contains l = links.contains l := by simp [Table.contains]
  have hu := KeySet.contains_union w.stackLinks (links.map fun _ _ => ()) l
  rw [hmap] at hu
  rw [enrolled, Table.get?_map]
  cases hg : (KeySet.union w.stackLinks (links.map fun _ _ => ())).get? l with
  | none =>
    rw [← hu, Table.contains, hg]
    rfl
  | some v =>
    rw [← hu, Table.contains, hg]
    rfl

theorem contains_enrolled (w : Wiring) (links : Table Link TrackedLink) (l : Link) :
    (enrolled w links).contains l = (w.stackLinks.contains l || links.contains l) := by
  rw [Table.contains, get?_enrolled]
  split
  next h => rw [h]; rfl
  next h => simpa using h

theorem entry_enrolled (w : Wiring) (links : Table Link TrackedLink) (l : Link) :
    ((enrolled w links).get? l).getD (.fresh l) = (links.get? l).getD (.fresh l) := by
  rw [get?_enrolled]
  split
  · rfl
  next h =>
    have : links.contains l = false := by simp_all
    simp only [Table.contains, Option.isSome_eq_false_iff, Option.isNone_iff_eq_none] at this
    rw [this]

/-- The next refresh tracks the configured links anyway. -/
theorem refreshLinks_enroll (n : Network) (w : Wiring) (now : Instant) :
    (n.enroll w).refreshLinks w now = n.refreshLinks w now := by
  refine refreshLinks_congr now (fun l => ?_) (fun l => entry_enrolled w n.links l)
  simp only [tracks, contains_enrolled]
  cases w.stackLinks.contains l <;> simp

theorem enroll_of_covers {n : Network} (h : ∀ l, w.stackLinks.contains l = true → n.links.contains l = true) :
    n.enroll w = n := by
  have : enrolled w n.links = n.links := by
    apply Table.ext_get?
    intro l
    rw [get?_enrolled]
    cases hg : n.links.get? l with
    | some x => simp [Table.contains, hg]
    | none =>
      have hc : n.links.contains l = false := by simp [Table.contains, hg]
      have hw : w.stackLinks.contains l = false := by
        rw [← Bool.not_eq_true]
        intro hw
        rw [h l hw] at hc
        cases hc
      simp [hc, hw]
  rw [enroll, this]

theorem contains_refreshLinks (n : Network) (w : Wiring) (now : Instant) (l : Link) :
    (n.refreshLinks w now).links.contains l = n.tracks w l := by
  rw [Table.contains, get?_refreshLinks]
  split
  next h => rw [h]; rfl
  next h => simpa using h

theorem enroll_refreshLinks (n : Network) (w : Wiring) (now : Instant) :
    (n.refreshLinks w now).enroll w = n.refreshLinks w now := by
  apply enroll_of_covers
  intro l hl
  rw [contains_refreshLinks, tracks, hl]
  rfl

end Network

/-- Missing configured links change no update beyond themselves. -/
theorem Update.apply_enroll (config : EngineConfig) (w : Wiring) (now : Instant) (u : Update) (n : Network) :
    u.apply config w now (n.enroll w) = (u.apply config w now n).map (enroll w) := by
  cases hu : u.isStack with
  | false =>
    have h := apply_restack config w now hu (enrolled w n.links) n.topology n
    have hlinks := links_apply config w now hu n
    have htop := topology_apply config w now hu n
    refine h.trans ?_
    simp only [Outcome.map, enroll, restack, hlinks, ← htop]
  | true =>
    cases u with
    | stackState e code =>
      refine congrArg Outcome.quiet (stackState_comm rfl (fun _ => rfl) (fun m => ?_) code)
      rw [refreshLinks_enroll, enroll_refreshLinks]
    | stage t => rfl
    | _ => cases hu

end Fabric
