import Fabric.Proofs.Filing

/-! Who is told of placements. Someone who takes down the hosts that connect and strikes out those
that disconnect has every host that the network has on an access port. But a host that goes straight
from one port of a switch to another is not said to have left the first, so such a host stays in the
list where it was, until it is back there and lost (`run_roster`). -/

namespace Fabric

open Network

/-- Where someone who hears the notices takes hosts to be. -/
abbrev Roster := Mac → Endpoint → Bool

namespace Roster

def empty : Roster := fun _ _ => false

def hear (b : Roster) : Notice → Roster
  | .placement (some mac) place connected => fun m e => if m = mac ∧ e = place then connected else b m e
  | _ => b

def hearAll (b : Roster) (l : List Notice) : Roster := l.foldl hear b

theorem hearAll_append (b : Roster) (l l' : List Notice) : b.hearAll (l ++ l') = (b.hearAll l).hearAll l' :=
  List.foldl_append

end Roster

/-- Is the host still listed at `port`, when the port that its switch has it on has gone from
`before` to `after`? Of a host that went to another port nothing was said. -/
def stays (port : UInt32) (before after : Option UInt32) (listed : Bool) : Bool :=
  if after = some port then true else if before = some port then after.isSome else listed

/-- A host that is where it was is listed as it was, provided that it was listed. -/
theorem stays_same {port : UInt32} {on : Option UInt32} {listed : Bool} (h : on = some port → listed = true) :
    stays port on on listed = listed := by
  unfold stays
  split
  next hon => exact (h hon).symm
  next => rfl

namespace Network

variable {w : Wiring} {now : Instant} {n : Network} {o : Outcome}

/-- Every host on an access port is listed there, and no host is listed elsewhere than on such ports. -/
structure Listed (w : Wiring) (n : Network) (b : Roster) : Prop where
  here : ∀ mac e, isAccess w e = true → n.seenOn mac e.switch = some e.port → b mac e = true
  access : ∀ mac e, isAccess w e = false → b mac e = false

/-- The notices of an outcome tell what became of hosts, but for hosts that went to another port. -/
def Tells (w : Wiring) (n : Network) (o : Outcome) : Prop :=
  ∀ b : Roster, Listed w n b → ∀ mac e, b.hearAll o.notices mac e =
    (isAccess w e && stays e.port (n.seenOn mac e.switch) (o.network.seenOn mac e.switch) (b mac e))

theorem Tells.listed {b : Roster} (h : Tells w n o) (hb : Listed w n b) :
    Listed w o.network (b.hearAll o.notices) where
  here mac e haccess hon := by simp [h b hb, haccess, stays, hon]
  access mac e haccess := by simp [h b hb, haccess]

/-- One change after the other, if none of them touches a host that the other touches. -/
theorem Tells.andThen {f : Network → Outcome} (h : Tells w n o) (hf : Tells w o.network (f o.network))
    (hapart : ∀ mac s, n.seenOn mac s = o.network.seenOn mac s ∨
      o.network.seenOn mac s = (f o.network).network.seenOn mac s) : Tells w n (o.andThen f) := by
  intro b hb mac e
  show b.hearAll (o.notices ++ (f o.network).notices) mac e =
    (isAccess w e && stays e.port _ ((f o.network).network.seenOn mac e.switch) _)
  rw [Roster.hearAll_append, hf _ (h.listed hb), h b hb]
  cases haccess : isAccess w e with
  | false => rfl
  | true =>
    have hhere := hb.here mac e haccess
    rw [Bool.true_and, Bool.true_and, Bool.true_and]
    rcases hapart mac e.switch with heq | heq
    · rw [← heq, stays_same hhere]
    · rw [← heq]
      exact stays_same fun hon => by rw [stays, if_pos hon]

theorem tells_quiet {m : Network} {l : List Notice} (hseen : ∀ mac s, m.seenOn mac s = n.seenOn mac s)
    (hl : ∀ b : Roster, b.hearAll l = b) : Tells w n ⟨m, l⟩ := by
  intro b hb mac e
  show b.hearAll l mac e = (isAccess w e && stays e.port _ (m.seenOn mac e.switch) _)
  rw [hl, hseen]
  cases haccess : isAccess w e with
  | false => exact hb.access mac e haccess
  | true => exact (stays_same (hb.here mac e haccess)).symm

/-! ## Hosts -/

theorem tells_forget (mac : Mac) (switch : String) : Tells w n (forget w mac switch n) := by
  cases hx : n.sighting? mac switch with
  | none =>
    rw [forget_none hx]
    exact tells_quiet (fun _ _ => rfl) fun _ => rfl
  | some x =>
    have hon : n.seenOn mac switch = some x.port := by rw [seenOn, hx]; rfl
    have hnotices : (forget w mac switch n).notices =
        if isAccess w ⟨switch, x.port⟩ then [.placement (some mac) ⟨switch, x.port⟩ false] else [] := by
      rw [forget, hx]
    intro b hb m e
    rw [hnotices, seenOn_forget]
    by_cases he : m = mac ∧ e = ⟨switch, x.port⟩
    · -- the host is lost where it was, which is told if that is an access port
      obtain ⟨rfl, rfl⟩ := he
      cases haccess : isAccess w ⟨switch, x.port⟩ with
      | false => simpa [Roster.hearAll] using hb.access m _ haccess
      | true => simp [Roster.hearAll, Roster.hear, stays, hon]
    · have hhear : b.hearAll (if isAccess w ⟨switch, x.port⟩ then
          [.placement (some mac) ⟨switch, x.port⟩ false] else []) m e = b m e := by
        split
        · exact if_neg he
        · rfl
      rw [hhear]
      cases haccess : isAccess w e with
      | false => exact hb.access m e haccess
      | true =>
        have hhere := hb.here m e haccess
        by_cases hm : m = mac ∧ e.switch = switch
        · have hport : ¬ x.port = e.port := fun hp => he ⟨hm.1, Endpoint.eq_iff.mpr ⟨hm.2, hp.symm⟩⟩
          simp [stays, hm, hon, hport]
        · rw [if_neg hm]
          exact (stays_same hhere).symm

theorem seenOn_forgetAll (macs : List Mac) (switch : String) (n : Network) (m : Mac) (s : String) :
    (forgetAll w macs switch n).network.seenOn m s =
      if m ∈ macs ∧ s = switch then none else n.seenOn m s := by
  rw [seenOn, sighting?_forgetAll]
  split <;> rfl

theorem tells_forgetAll (macs : List Mac) (switch : String) : Tells w n (forgetAll w macs switch n) := by
  induction macs generalizing n with
  | nil => exact tells_quiet (fun _ _ => rfl) fun _ => rfl
  | cons mac r ih =>
    rw [forgetAll, Outcome.forEach_cons]
    refine (tells_forget mac switch).andThen ih fun m s => ?_
    -- a host that is lost at once cannot be lost again
    have hrest := seenOn_forgetAll (w := w) r switch (forget w mac switch n).network m s
    rw [forgetAll, seenOn_forget] at hrest
    rw [hrest, seenOn_forget]
    by_cases hm : m = mac ∧ s = switch
    · right
      simp [hm]
    · left
      rw [if_neg hm]

theorem tells_record (e : Endpoint) (mac : Mac) (t : Traits) : Tells w n (record w now e mac t n) := by
  intro b hb m e'
  have hhear : b.hearAll (record w now e mac t n).notices m e' =
      if m = mac ∧ e' = e ∧ isAccess w e = true then true else b m e' := by
    show b.hearAll (((reassignment _ t).map (Notice.reassigned mac)).toList ++ _) m e' = _
    rw [Roster.hearAll_append]
    have hreassigned (o : Option UInt16) : b.hearAll (o.map (Notice.reassigned mac)).toList = b := by
      cases o <;> rfl
    rw [hreassigned]
    cases isAccess w e <;> simp [Roster.hearAll, Roster.hear]
  rw [hhear, seenOn_record]
  cases haccess : isAccess w e' with
  | false =>
    have hno : ¬ (m = mac ∧ e' = e ∧ isAccess w e = true) := by
      rintro ⟨_, rfl, h⟩
      rw [haccess] at h
      cases h
    rw [if_neg hno]
    exact hb.access m e' haccess
  | true =>
    have hhere := hb.here m e' haccess
    by_cases hm : m = mac ∧ e'.switch = e.switch
    · by_cases hp : e'.port = e.port
      · have he : e' = e := Endpoint.eq_iff.mpr ⟨hm.2, hp⟩
        subst he
        simp [hm, haccess, stays]
      · -- the host may have been here before: then it is still listed
        have he : ¬ e' = e := fun he => hp (congrArg Endpoint.port he)
        have hother : ¬ e.port = e'.port := Ne.symm hp
        simp only [he, false_and, and_false, if_false, if_pos hm, stays, Option.some.injEq, if_neg hother,
          Option.isSome_some, Bool.true_and]
        split
        next hseen => exact hhere hseen
        next => rfl
    · have hno : ¬ (m = mac ∧ e' = e ∧ isAccess w e = true) :=
        fun h => hm ⟨h.1, congrArg Endpoint.switch h.2.1⟩
      rw [if_neg hno, if_neg hm]
      exact (stays_same hhere).symm

theorem tells_learn (e : Endpoint) (mac : Mac) (t : Traits) : Tells w n (learn w now e mac t n) := by
  unfold learn
  refine (tells_forgetAll _ e.switch).andThen (tells_record e mac t) fun m s => ?_
  rw [seenOn_record, seenOn_forgetAll]
  by_cases hm : m = mac
  · left
    subst hm
    split <;> simp
  · right
    simp [hm]

theorem tells_expire (e : Endpoint) (mac : Mac) : Tells w n (expire w e mac n) := by
  unfold expire
  split
  · exact tells_forget mac e.switch
  · exact tells_quiet (fun _ _ => rfl) fun _ => rfl

theorem tells_clearPort (e : Endpoint) : Tells w n (clearPort w e n) := by
  unfold clearPort
  split
  · exact tells_quiet (fun _ _ => rfl) fun _ => rfl
  · exact tells_forgetAll _ e.switch

theorem tells_portState (e : Endpoint) (up : Bool) : Tells w n (portState w now e up n) := by
  by_cases hs : (n.port? e).any (·.up = some up) = true
  · rw [portState_same hs]
    exact tells_quiet (fun _ _ => rfl) fun _ => rfl
  · rw [portState_news hs]
    have hnote : Tells w n ⟨n.updatePort e (notePort · now up), [.portState e up]⟩ :=
      tells_quiet (fun _ _ => rfl) fun _ => rfl
    refine hnote.andThen ?_ fun _ _ => .inl rfl
    dsimp only
    split
    · exact tells_clearPort e
    · exact tells_quiet (fun _ _ => rfl) fun _ => rfl

theorem tells_update (config : EngineConfig) (u : Update) : Tells w n (u.apply config w now n) := by
  cases u with
  | portState e up => exact tells_portState e up
  | learn e mac t => exact tells_learn e mac t
  | expire e mac => exact tells_expire e mac
  | stackState e code =>
    refine tells_quiet (fun mac s => ?_) fun _ => rfl
    rcases stackState_cases w now e code n with h | ⟨x, h⟩ <;> rw [h]
    rw [refreshLinks_eq]
    rfl
  | lag | stage | connection | reload | vlanSamples => exact tells_quiet (fun _ _ => rfl) fun _ => rfl

end Network

/-! ## Runs -/

namespace Operation

/-- Neither a new configuration nor a restore. -/
def isStatic : Operation → Bool
  | configure _ _ | restore _ _ => false
  | _ => true

/-- The single steps of an operation: an event may ask for several updates. -/
def steps : Operation → List Operation
  | dispatch e => e.updates.map (update (.ofSeconds e.time))
  | op => [op]

/-- A static operation that is a step of its own. -/
def isStep : Operation → Bool
  | configure _ _ | restore _ _ | dispatch _ => false
  | _ => true

theorem isStep_steps {op : Operation} (h : op.isStatic = true) : ∀ x ∈ op.steps, x.isStep = true := by
  intro x hx
  cases op with
  | dispatch e =>
    obtain ⟨_, _, rfl⟩ := List.mem_map.mp hx
    rfl
  | configure | restore => cases h
  | update | authorize | heartbeat | setReadiness =>
    rw [List.mem_singleton.mp hx]
    rfl

end Operation

namespace Engine

theorem run_singleton (g : Engine) (op : Operation) : g.run [op] = g.perform op := by
  rw [run_cons, run_nil, List.append_nil]

/-- An operation does what its steps do. -/
theorem perform_steps (g : Engine) (op : Operation) : g.run op.steps = g.perform op := by
  cases op with
  | dispatch e => exact run_updates g _ e.updates
  | _ => exact run_singleton g _

theorem run_flatMap_steps (g : Engine) (ops : List Operation) :
    g.run (ops.flatMap Operation.steps) = g.run ops := by
  induction ops generalizing g with
  | nil => rfl
  | cons op r ih => rw [List.flatMap_cons, run_append, run_cons, perform_steps, ih]

theorem wiring_perform {op : Operation} (h : op.isStep = true) (g : Engine) :
    (g.perform op).1.wiring = g.wiring := by
  cases op with
  | configure | restore | dispatch => cases h
  | authorize mac a => rw [perform_authorize]
  | update | heartbeat | setReadiness => rfl

theorem tells_perform {op : Operation} (h : op.isStep = true) (g : Engine) :
    Tells g.wiring g.network ⟨(g.perform op).1.network, (g.perform op).2⟩ := by
  cases op with
  | configure | restore | dispatch => cases h
  | update now u =>
    rw [perform, update_eq]
    exact tells_update g.config u
  | authorize mac a =>
    rw [perform_authorize]
    refine tells_quiet (fun m s => ?_) fun _ => rfl
    cases ha : g.network.authorize mac a with
    | error _ => rfl
    | ok n =>
      obtain ⟨old, hold, rfl⟩ := authorize_ok ha
      show seenOn { g.network with hosts := _ } m s = _
      unfold seenOn sighting?
      rw [Table.get?_insert]
      split
      next hm => rw [hm, hold]; rfl
      next => rfl
  | heartbeat now =>
    refine tells_quiet (fun m s => ?_) fun _ => rfl
    show (g.network.heartbeat g.wiring g.config.window now).1.seenOn m s = _
    rcases heartbeat_cases g.network g.wiring g.config.window now with hn | hn | ⟨_, hn⟩ <;> rw [hn]
    · rfl
    · rw [refreshLinks_eq]
      rfl
  | setReadiness => exact tells_quiet (fun _ _ => rfl) fun _ => rfl

/-- Whether a host has gone from the place straight to another port of the switch and has not been
back since. -/
def left (mac : Mac) (place : Endpoint) (was : Bool) (g : Engine) : List Operation → Bool
  | [] => was
  | op :: r =>
    let before := g.network.seenOn mac place.switch
    let after := (g.perform op).1.network.seenOn mac place.switch
    (g.perform op).1.left mac place
      (after ≠ some place.port && if before = some place.port then after.isSome else was) r

theorem stays_eq (port : UInt32) (before after : Option UInt32) (was : Bool) :
    stays port before after (before = some port || was) =
      (after = some port || (after ≠ some port && if before = some port then after.isSome else was)) := by
  unfold stays
  by_cases ha : after = some port <;> by_cases hb : before = some port <;> simp [ha, hb]

theorem hearAll_run {g : Engine} {ops : List Operation} (hops : ∀ op ∈ ops, op.isStep = true) {b : Roster}
    (hb : Listed g.wiring g.network b) {mac : Mac} {place : Endpoint} {was : Bool}
    (hplace : b mac place = (isAccess g.wiring place &&
      (g.network.seenOn mac place.switch = some place.port || was))) :
    b.hearAll (g.run ops).2 mac place = (isAccess g.wiring place &&
      ((g.run ops).1.network.seenOn mac place.switch = some place.port || g.left mac place was ops)) := by
  induction ops generalizing g b was with
  | nil => exact hplace
  | cons op r ih =>
    have hop : op.isStep = true := hops op (by simp)
    have hwiring := wiring_perform hop g
    have htells := tells_perform hop g
    have hnext := htells b hb mac place
    have hlisted := htells.listed hb
    rw [← hwiring] at hlisted
    rw [run_cons, Roster.hearAll_append, ← hwiring]
    refine ih (fun x hx => hops x (by simp [hx])) hlisted ?_
    rw [hnext, hplace, hwiring]
    cases isAccess g.wiring place with
    | false => rfl
    | true => exact stays_eq _ _ _ _

/-- Take a new engine with some configuration of the switches, and anything done to it but another
configuration or a restore. Of those who hear the notices, who takes down each host that connects and
strikes out each that disconnects has a host at a place if and only if it is an access port, and
either the host table has the host there, or the host went from there straight to another port of the
switch and has not been back. -/
theorem run_roster (config : EngineConfig) (w : Wiring) (now : Instant) (ops : List Operation)
    (static : ∀ op ∈ ops, op.isStatic = true) (mac : Mac) (place : Endpoint) :
    let g := (fresh config).configure now w
    Roster.empty.hearAll (g.run ops).2 mac place = (isAccess w place &&
      ((g.run ops).1.network.seenOn mac place.switch = some place.port ||
        g.left mac place false (ops.flatMap Operation.steps))) := by
  intro g
  have hsteps : ∀ op ∈ ops.flatMap Operation.steps, op.isStep = true := by
    intro op hop
    obtain ⟨x, hx, hop⟩ := List.mem_flatMap.mp hop
    exact Operation.isStep_steps (static x hx) op hop
  have hnobody (m : Mac) (s : String) : g.network.seenOn m s = none := by
    show (Network.empty.refreshLinks w now).seenOn m s = none
    rw [refreshLinks_eq]
    rfl
  have hlisted : Listed g.wiring g.network Roster.empty :=
    ⟨fun m e _ hon => by simp [hnobody] at hon, fun _ _ _ => rfl⟩
  have hplace : Roster.empty mac place =
      (isAccess g.wiring place && (g.network.seenOn mac place.switch = some place.port || false)) := by
    simp [hnobody, Roster.empty]
  rw [← run_flatMap_steps g ops]
  exact hearAll_run hsteps hlisted hplace

section Small

/-- Two access ports. -/
def accessWiring : Wiring :=
  let access : Interface := ⟨none, none, some "100", none, none, none, none, [], none⟩
  ⟨.ofList [("sw1", ⟨some 1, none, .ofList [(.number 1, access), (.number 2, access)], ∅⟩)]⟩

def smallMac : Mac := .ofText "0e:00:00:00:00:0a"

/-- A host goes from one to the other. -/
def moveOps : List Operation :=
  [ .update 1000 (.learn ⟨"sw1", 1⟩ smallMac ⟨none, none⟩),
    .update 2000 (.learn ⟨"sw1", 2⟩ smallMac ⟨none, none⟩) ]

theorem run_roster_small :
    (∀ op ∈ moveOps, op.isStatic = true) ∧
      let g := (fresh .usual).configure 0 accessWiring
      Roster.empty.hearAll (g.run moveOps).2 smallMac ⟨"sw1", 1⟩ = (isAccess accessWiring ⟨"sw1", 1⟩ &&
        ((g.run moveOps).1.network.seenOn smallMac "sw1" = some 1 ||
          g.left smallMac ⟨"sw1", 1⟩ false (moveOps.flatMap Operation.steps))) := by
  have static : ∀ op ∈ moveOps, op.isStatic = true := by decide
  exact ⟨static, run_roster .usual accessWiring 0 moveOps static smallMac ⟨"sw1", 1⟩⟩

/-- The list is not where hosts are: one that went to another port is still listed at the first. -/
theorem move_untold :
    ¬ ∀ (config : EngineConfig) (w : Wiring) (now : Instant) (ops : List Operation),
      (∀ op ∈ ops, op.isStatic = true) → ∀ (mac : Mac) (place : Endpoint),
      let g := (fresh config).configure now w
      Roster.empty.hearAll (g.run ops).2 mac place =
        (isAccess w place && (g.run ops).1.network.seenOn mac place.switch = some place.port) := by
  intro hall
  have hclaim := hall .usual accessWiring 0 moveOps (by decide) smallMac ⟨"sw1", 1⟩
  revert hclaim
  decide +kernel

end Small
end Engine
end Fabric
