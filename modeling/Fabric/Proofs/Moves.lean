import Fabric.Network.Health
import Fabric.Proofs.Counting

/-! Counts over whole operations and runs. The count of host changes goes by the pairs of host and
switch whose port is another one than before, or is new, or gone (`Moves`): a host that displaces three
others makes four changes. For everything else the count of a whole operation is exact, even where an
event reports on many ports at once, for those are different ports (`counts_forEach`). As no count ever
falls and nothing that has one is lost, the counts of the summaries never fall either
(`Engine.run_counts`). -/

namespace Fabric

open Network

namespace Network

variable {n m k : Network} {w : Wiring} {now : Instant} {moved : List (Mac × String)}

/-! ## Hosts -/

/-- The pairs of host and switch whose port changed, each counted once. -/
structure Moves (n m : Network) (moved : List (Mac × String)) : Prop where
  nodup : moved.Nodup
  complete : ∀ mac s, (mac, s) ∈ moved ↔ m.seenOn mac s ≠ n.seenOn mac s
  counted : m.hostChanges = n.hostChanges + moved.length

namespace Moves

theorem none (hseen : ∀ mac s, m.seenOn mac s = n.seenOn mac s) (hcount : m.hostChanges = n.hostChanges) :
    Moves n m [] where
  nodup := .nil
  complete mac s := by simp [hseen]
  counted := hcount

theorem refl (n : Network) : Moves n n [] := none (fun _ _ => rfl) rfl

/-- Changes add up as long as none of them takes back another. -/
theorem trans {a b : List (Mac × String)} (h : Moves n m a) (h' : Moves m k b) (apart : ∀ x ∈ a, x ∉ b) :
    Moves n k (a ++ b) where
  nodup := List.nodup_append.mpr ⟨h.nodup, h'.nodup, fun x hx y hy heq => apart x hx (heq ▸ hy)⟩
  complete mac s := by
    rw [List.mem_append]
    by_cases ha : (mac, s) ∈ a
    · have hkept : k.seenOn mac s = m.seenOn mac s :=
        Decidable.not_not.mp fun hne => apart _ ha ((h'.complete mac s).mpr hne)
      rw [hkept]
      exact iff_of_true (.inl ha) ((h.complete mac s).mp ha)
    · have hkept : m.seenOn mac s = n.seenOn mac s :=
        Decidable.not_not.mp fun hne => ha ((h.complete mac s).mpr hne)
      rw [or_iff_right ha, h'.complete, hkept]
  counted := by
    rw [h'.counted, h.counted, List.length_append, Nat.add_assoc]

theorem le (h : Moves n m moved) : n.hostChanges ≤ m.hostChanges := by
  rw [h.counted]
  exact Nat.le_add_right _ _

theorem forget {mac : Mac} {switch : String} (h : n.seenOn mac switch ≠ Option.none) :
    Moves n (forget w mac switch n).network [(mac, switch)] where
  nodup := by simp
  complete m s := by
    rw [seenOn_forget, List.mem_singleton, Prod.mk.injEq]
    split
    next heq =>
      rw [heq.1, heq.2]
      exact iff_of_true ⟨rfl, rfl⟩ (Ne.symm h)
    next hne => exact iff_of_false hne fun hsame => hsame rfl
  counted := by
    obtain ⟨s, hs⟩ : ∃ s, n.sighting? mac switch = some s := by
      unfold seenOn at h
      exact Option.ne_none_iff_exists'.mp fun hnone => h (by rw [hnone]; rfl)
    rw [forget_some hs]
    rfl

/-- Each of several hosts on one switch is lost once. -/
theorem forgetAll {macs : List Mac} {switch : String} (nodup : macs.Nodup)
    (h : ∀ mac ∈ macs, n.seenOn mac switch ≠ Option.none) :
    Moves n (forgetAll w macs switch n).network (macs.map (·, switch)) := by
  induction macs generalizing n with
  | nil => exact refl n
  | cons mac r ih =>
    obtain ⟨hmac, hr⟩ := List.nodup_cons.mp nodup
    have hrest : ∀ other ∈ r, (Network.forget w mac switch n).network.seenOn other switch ≠ Option.none := by
      intro other hother
      have hne : ¬ (other = mac ∧ switch = switch) := fun heq => hmac (heq.1 ▸ hother)
      rw [seenOn_forget, if_neg hne]
      exact h other (List.mem_cons_of_mem _ hother)
    rw [Network.forgetAll, Outcome.forEach_cons, Outcome.andThen_network]
    refine (forget (h mac List.mem_cons_self)).trans (ih hr hrest) ?_
    intro x hx hmem
    rw [List.mem_singleton.mp hx] at hmem
    obtain ⟨other, hother, heq⟩ := List.mem_map.mp hmem
    exact hmac ((Prod.mk.inj heq).1 ▸ hother)

theorem record (e : Endpoint) (mac : Mac) (t : Traits) :
    Moves n (record w now e mac t n).network
      (if n.seenOn mac e.switch = some e.port then [] else [(mac, e.switch)]) := by
  have hbefore : (((n.hosts.get? mac).getD .fresh).sightings.get? e.switch).map (·.port) =
      n.seenOn mac e.switch := by rw [sightings_getD, seenOn]
  have hcount : (Network.record w now e mac t n).network.hostChanges = n.hostChanges +
      if (n.seenOn mac e.switch).isNone || ((n.seenOn mac e.switch).filter (· ≠ e.port)).isSome then 1
      else 0 := by
    rw [← hbefore]
    rfl
  by_cases hon : n.seenOn mac e.switch = some e.port
  · rw [if_pos hon]
    refine none (fun m s => ?_) ?_
    · rw [seenOn_record]
      split
      next heq => rw [heq.1, heq.2, hon]
      next => rfl
    · rw [hcount, hon]
      simp
  · rw [if_neg hon]
    refine ⟨by simp, fun m s => ?_, ?_⟩
    · rw [seenOn_record, List.mem_singleton, Prod.mk.injEq]
      split
      next heq =>
        rw [heq.1, heq.2]
        exact iff_of_true ⟨rfl, rfl⟩ (Ne.symm hon)
      next hne => exact iff_of_false hne fun hsame => hsame rfl
    · rw [hcount]
      cases hseen : n.seenOn mac e.switch with
      | none => rfl
      | some p =>
        have hne : p ≠ e.port := fun heq => hon (by rw [hseen, heq])
        simp [hne]

end Moves

theorem nodup_macsAt (n : Network) (e : Endpoint) : (n.macsAt e).Nodup := by
  unfold macsAt
  cases n.port? e with
  | none => exact .nil
  | some p => exact Table.nodup_keys p.macs

theorem Filed.seenOn_macsAt (h : n.Filed) {e : Endpoint} {mac : Mac} (hmac : mac ∈ n.macsAt e) :
    n.seenOn mac e.switch = some e.port := (h.listed mac e).mp (mem_macsAt.mp hmac)

theorem moves_clearPort (h : n.Filed) (e : Endpoint) :
    ∃ moved, Moves n (clearPort w e n).network moved := by
  unfold clearPort
  split
  · exact ⟨_, .refl n⟩
  next macs heq =>
    refine ⟨_, .forgetAll (nodup_macsAt n e) fun mac hmac => ?_⟩
    rw [h.seenOn_macsAt hmac]
    exact Option.some_ne_none _

theorem moves_portState (h : n.Filed) (e : Endpoint) (up : Bool) :
    ∃ moved, Moves n (portState w now e up n).network moved := by
  by_cases hs : (n.port? e).any (·.up = some up) = true
  · rw [portState_same hs]
    exact ⟨[], .refl n⟩
  · have hnote : (n.updatePort e (notePort · now up)).Filed := h.updatePort e fun _ => rfl
    rw [portState_news hs, Outcome.andThen_network]
    dsimp only
    split
    · obtain ⟨moved, hmoved⟩ := moves_clearPort (w := w) hnote e
      exact ⟨moved, hmoved.nodup, hmoved.complete, hmoved.counted⟩
    · exact ⟨[], .none (fun _ _ => rfl) rfl⟩

/-- Those who are displaced are other hosts than the one that is learned. -/
theorem moves_learn (h : n.Filed) (e : Endpoint) (mac : Mac) (t : Traits) :
    ∃ moved, Moves n (learn w now e mac t n).network moved := by
  rw [learn, Outcome.andThen_network]
  generalize hdisplaced : (if isAccess w e then (n.macsAt e).filter (· ≠ mac) else []) = displaced
  have hnodup : displaced.Nodup ∧ ∀ other ∈ displaced, other ∈ n.macsAt e ∧ other ≠ mac := by
    subst hdisplaced
    split
    · exact ⟨(nodup_macsAt n e).filter _, fun other hother => by simpa using List.mem_filter.mp hother⟩
    · exact ⟨.nil, fun _ hother => absurd hother List.not_mem_nil⟩
  have hseen : ∀ other ∈ displaced, n.seenOn other e.switch ≠ none := by
    intro other hother
    rw [h.seenOn_macsAt (hnodup.2 other hother).1]
    exact Option.some_ne_none _
  refine ⟨_, (Moves.forgetAll hnodup.1 hseen).trans (.record e mac t) fun x hx hmem => ?_⟩
  obtain ⟨other, hother, rfl⟩ := List.mem_map.mp hx
  split at hmem
  · exact absurd hmem List.not_mem_nil
  · exact (hnodup.2 other hother).2 (Prod.mk.inj (List.mem_singleton.mp hmem)).1

theorem moves_expire (n : Network) (e : Endpoint) (mac : Mac) :
    ∃ moved, Moves n (expire w e mac n).network moved := by
  unfold expire
  split
  next h =>
    refine ⟨_, .forget fun hnone => ?_⟩
    cases hs : n.sighting? mac e.switch with
    | none =>
      rw [hs] at h
      cases h
    | some s =>
      rw [seenOn, hs] at hnone
      cases hnone
  next => exact ⟨_, .refl n⟩

theorem moves_refreshLinks (h : Moves n m moved) (w : Wiring) (now : Instant) :
    Moves n (m.refreshLinks w now) moved := by
  rw [refreshLinks_eq]
  exact ⟨h.nodup, h.complete, h.counted⟩

theorem moves_heartbeat (n : Network) (w : Wiring) (window : Nat) (now : Instant) :
    Moves n (n.heartbeat w window now).1 [] := by
  rcases heartbeat_cases n w window now with heq | heq | ⟨status, heq⟩
  · rw [heq]
    exact .refl n
  · rw [heq]
    exact .none (fun _ _ => rfl) rfl
  · have hstatus : Moves n { n with topology := status } [] := .none (fun _ _ => rfl) rfl
    rw [heq]
    exact moves_refreshLinks hstatus w now

theorem moves_update (h : n.Filed) (config : EngineConfig) (u : Update) :
    ∃ moved, Moves n (u.apply config w now n).network moved := by
  cases u with
  | portState e up => exact moves_portState h e up
  | learn e mac t => exact moves_learn h e mac t
  | expire e mac => exact moves_expire n e mac
  | stackState e code =>
    refine ⟨[], ?_⟩
    show Moves n (stackState w now e code n) []
    rcases stackState_cases w now e code n with heq | ⟨s, heq⟩
    · rw [heq]
      exact .refl n
    · have hnote : Moves n (n.updatePort e (noteStack · s)) [] := .none (fun _ _ => rfl) rfl
      rw [heq]
      exact moves_refreshLinks hnote w now
  | lag | stage | connection | reload | vlanSamples => exact ⟨[], .none (fun _ _ => rfl) rfl⟩

/-! ## Several updates at once -/

section ForEach
variable {α : Type} {f : α → Network → Outcome} {c : α → Counted} {l : List α} {x : Counted}

theorem still_forEach (hstill : ∀ a ∈ l, ∀ n, Still n (f a n).network x) (n : Network) :
    Still n (Outcome.forEach l f n).network x :=
  Outcome.forEach_keeps (P := fun m => Still n m x) (fun a ha m hm => hm.trans (hstill a ha m)) (.refl n x)

/-- Updates about different things, none of which moves what another is about. -/
theorem counts_forEach (hcounts : ∀ a ∈ l, ∀ n, Counts now n (f a n).network)
    (hstill : ∀ a ∈ l, ∀ n x, x ≠ c a → Still n (f a n).network x) (nodup : (l.map c).Nodup)
    (n : Network) : Counts now n (Outcome.forEach l f n).network := by
  induction l generalizing n with
  | nil => exact (Quiet.refl n).counts
  | cons a r ih =>
    rw [List.map_cons, List.nodup_cons] at nodup
    rw [Outcome.forEach_cons, Outcome.andThen_network]
    have hfirst := hcounts a List.mem_cons_self n
    have hrest := ih (fun b hb => hcounts b (List.mem_cons_of_mem _ hb))
      (fun b hb => hstill b (List.mem_cons_of_mem _ hb)) nodup.2 (f a n).network
    refine ⟨fun x => ?_, hfirst.persists.trans hrest.persists⟩
    -- what the first is about is left alone by the others, and the other way around
    by_cases hx : x = c a
    · refine (hfirst.noted x).trans_still (still_forEach (fun b hb m => ?_) _)
      refine hstill b (List.mem_cons_of_mem _ hb) m x fun heq => nodup.1 ?_
      rw [← hx, heq]
      exact List.mem_map_of_mem hb
    · exact (hstill a List.mem_cons_self n x hx).trans_noted (hrest.noted x)

end ForEach

theorem quiet_learns (config : EngineConfig) (s : String) (ls : List Learn) (n : Network) :
    Quiet n (Outcome.forEach (ls.map (Learn.update s)) (Update.apply config w now) n).network :=
  Outcome.forEach_keeps (P := Quiet n) (fun u hu m hm => by
    obtain ⟨l, -, rfl⟩ := List.mem_map.mp hu
    exact hm.trans (quiet_learn m _ _ _)) (.refl n)

/-- A report on many ports is about different ports. -/
theorem counts_portsStatus (config : EngineConfig) (s : String) (ps : Table UInt32 Bool) (n : Network) :
    Counts now n (Outcome.forEach (ps.toList.map fun p => Update.portState ⟨s, p.1⟩ p.2)
      (Update.apply config w now) n).network := by
  rw [Outcome.forEach_map]
  refine counts_forEach (c := fun p : UInt32 × Bool => .port ⟨s, p.1⟩) (fun p _ m => counts_portState m _ _)
    (fun p _ m x hx => still_portState m _ hx) ?_ n
  have hkeys : ps.toList.map (fun p => Counted.port ⟨s, p.1⟩) = ps.keys.map fun p => .port ⟨s, p⟩ := by
    rw [Table.keys, List.map_map]
    rfl
  rw [hkeys]
  refine List.pairwise_map.mpr (ps.nodup_keys.imp fun hne heq => hne ?_)
  exact congrArg Endpoint.port (Counted.port.inj heq)

theorem counts_report (config : EngineConfig) (r : Report) (n : Network) :
    Counts now n (Outcome.forEach r.updates (Update.apply config w now) n).network := by
  cases r with
  | portsStatus s _ ps => exact counts_portsStatus config s ps n
  | learnedMacs s ls => exact (quiet_learns config s ls n).counts
  | _ =>
    rw [Report.updates, Outcome.forEach_singleton]
    exact counts_update config _ n

end Network

/-! ## Operations -/

/-- The time that an operation gives. -/
def Operation.time? : Operation → Option Instant
  | .update now _ | .configure now _ | .heartbeat now | .restore now _ => some now
  | .dispatch e => some (.ofSeconds e.time)
  | .authorize _ _ | .setReadiness _ => none

namespace Engine

theorem counts_dispatch (g : Engine) (e : Event) :
    Counts (.ofSeconds e.time) g.network (g.dispatch e).1.network := by
  show Counts _ g.network (Outcome.forEach e.updates _ g.network).network
  unfold Event.updates
  cases e.reports.head? with
  | none => exact (Quiet.refl g.network).counts
  | some r => exact counts_report g.config r g.network

theorem quiet_authorize (g : Engine) (mac : Mac) (a : Authorization) :
    Quiet g.network (g.perform (.authorize mac a)).1.network := by
  rw [perform_authorize]
  cases ha : g.network.authorize mac a with
  | error => exact .refl g.network
  | ok n =>
    obtain ⟨_, _, rfl⟩ := authorize_ok ha
    exact ⟨fun x => by cases x <;> exact ⟨rfl, rfl⟩, .of_eq rfl rfl rfl rfl⟩

theorem counts_perform {op : Operation} (live : op.isRestore = false) (g : Engine) {now : Instant}
    (h : op.time? = some now) : Counts now g.network (g.perform op).1.network := by
  cases op with
  | update _ u =>
    cases h
    rw [perform, update_eq]
    exact counts_update g.config u g.network
  | dispatch e =>
    cases h
    exact g.counts_dispatch e
  | configure _ w =>
    cases h
    exact counts_refreshLinks g.network w now
  | heartbeat =>
    cases h
    exact counts_heartbeat g.network g.wiring g.config.window now
  | restore => cases live
  | authorize | setReadiness => cases h

theorem quiet_perform {op : Operation} (g : Engine) (h : op.time? = none) :
    Quiet g.network (g.perform op).1.network := by
  cases op with
  | authorize mac a => exact g.quiet_authorize mac a
  | setReadiness => exact .refl g.network
  | _ => cases h

theorem moves_authorize (g : Engine) (mac : Mac) (a : Authorization) :
    Moves g.network (g.perform (.authorize mac a)).1.network [] := by
  rw [perform_authorize]
  cases ha : g.network.authorize mac a with
  | error => exact .refl g.network
  | ok n =>
    obtain ⟨old, hold, rfl⟩ := authorize_ok ha
    exact .none (fun m s => seenOn_authorized hold a m s) rfl

/-- A step is an operation other than an event, which may ask for several. -/
theorem moves_step {g : Engine} (h : g.network.Filed) {op step : Operation} (live : op.isRestore = false)
    (hstep : step ∈ op.steps) : ∃ moved, Moves g.network (g.perform step).1.network moved := by
  have hupdate (now : Instant) (u : Update) :
      ∃ moved, Moves g.network (g.perform (.update now u)).1.network moved := by
    rw [perform, update_eq]
    exact moves_update h g.config u
  cases op with
  | dispatch e =>
    obtain ⟨u, -, rfl⟩ := List.mem_map.mp hstep
    exact hupdate _ u
  | update now u =>
    obtain rfl := List.mem_singleton.mp hstep
    exact hupdate now u
  | configure now w =>
    obtain rfl := List.mem_singleton.mp hstep
    exact ⟨[], moves_refreshLinks (.refl g.network) w now⟩
  | authorize mac a =>
    obtain rfl := List.mem_singleton.mp hstep
    exact ⟨[], g.moves_authorize mac a⟩
  | heartbeat now =>
    obtain rfl := List.mem_singleton.mp hstep
    exact ⟨[], moves_heartbeat g.network g.wiring g.config.window now⟩
  | restore => cases live
  | setReadiness r =>
    obtain rfl := List.mem_singleton.mp hstep
    exact ⟨[], .refl g.network⟩

end Engine

/-! ## Runs -/

namespace Network

/-- No count is smaller and nothing is lost. -/
structure Grown (n m : Network) : Prop where
  counts : ∀ x, (n.changesOf x).count ≤ (m.changesOf x).count
  hosts : n.hostChanges ≤ m.hostChanges
  persists : Persists n m

theorem Grown.refl (n : Network) : Grown n n := ⟨fun _ => Nat.le_refl _, Nat.le_refl _, .refl n⟩

theorem Grown.trans {n m k : Network} (h : Grown n m) (h' : Grown m k) : Grown n k :=
  ⟨fun x => Nat.le_trans (h.counts x) (h'.counts x), Nat.le_trans h.hosts h'.hosts,
    h.persists.trans h'.persists⟩

end Network

namespace Engine

theorem isRestore_of_mem_steps {op step : Operation} (live : op.isRestore = false)
    (hstep : step ∈ op.steps) : step.isRestore = false := by
  cases op with
  | dispatch e =>
    obtain ⟨u, -, rfl⟩ := List.mem_map.mp hstep
    rfl
  | _ =>
    obtain rfl := List.mem_singleton.mp hstep
    exact live

theorem grown_step {g : Engine} (h : g.network.Filed) {op step : Operation} (live : op.isRestore = false)
    (hstep : step ∈ op.steps) : Grown g.network (g.perform step).1.network := by
  obtain ⟨moved, hmoved⟩ := moves_step h live hstep
  cases htime : step.time? with
  | some now =>
    have hcounts := counts_perform (isRestore_of_mem_steps live hstep) g htime
    exact ⟨fun x => (hcounts.noted x).count_le, hmoved.le, hcounts.persists⟩
  | none =>
    have hquiet := g.quiet_perform htime
    exact ⟨fun x => Nat.le_of_eq (congrArg Changes.count (hquiet.still x).changes.symm), hmoved.le,
      hquiet.persists⟩

theorem grown_run {g : Engine} (h : g.network.Filed) {ops : List Operation}
    (live : ∀ op ∈ ops, op.isRestore = false) : Grown g.network (g.run ops).1.network := by
  have hkept : (g.run (ops.flatMap Operation.steps)).1.network.Filed ∧
      Grown g.network (g.run (ops.flatMap Operation.steps)).1.network := by
    refine run_keeps (P := fun g' => g'.network.Filed ∧ Grown g.network g'.network) ?_ ⟨h, .refl g.network⟩
    intro step hstep g' hg'
    obtain ⟨op, hop, hstep⟩ := List.mem_flatMap.mp hstep
    exact ⟨Filed.kept.perform step g' hg'.1, hg'.2.trans (grown_step hg'.1 (live op hop) hstep)⟩
  rw [run_flatMap_steps] at hkept
  exact hkept.2

end Engine

/-! ## Summaries -/

namespace Network

variable {n m : Network}

theorem total_cons (c : Changes) (cs : List Changes) :
    (Changes.total (c :: cs)).count = c.count + (Changes.total cs).count := by
  have hfold (cs : List Changes) (a : Changes) :
      (cs.foldl .add a).count = a.count + (Changes.total cs).count := by
    induction cs generalizing a with
    | nil => rfl
    | cons d r ih =>
      rw [Changes.total, List.foldl_cons, List.foldl_cons, ih, ih]
      show a.count + d.count + _ = a.count + (0 + d.count + _)
      rw [Nat.zero_add, Nat.add_assoc]
  rw [Changes.total, List.foldl_cons, hfold]
  show 0 + c.count + _ = _
  rw [Nat.zero_add]

section Total
variable {κ ν : Type} [Ord κ] [DecidableEq κ] [Std.LawfulEqOrd κ]

/-- One entry can be counted apart from the others. -/
theorem total_find? {f : ν → Changes} {k : κ} {v : ν} {l : List (κ × ν)} (h : Entries.Ascending l)
    (hk : Entries.find? k l = some v) :
    (Changes.total (l.map fun e => f e.2)).count =
      (f v).count + (Changes.total ((l.filter fun e => e.1 ≠ k).map fun e => f e.2)).count := by
  induction l with
  | nil => cases hk
  | cons e r ih =>
    have hr := List.pairwise_cons.mp h
    by_cases he : k = e.1
    · subst he
      have hv : e.2 = v := by simpa [Entries.find?] using hk
      have hrest : r.filter (fun x => x.1 ≠ e.1) = r := by
        refine List.filter_eq_self.mpr fun x hx => ?_
        have hlt := hr.1 x hx
        by_cases hx' : x.1 = e.1
        · rw [hx'] at hlt
          simp at hlt
        · simpa using hx'
      rw [List.filter_cons_of_neg (by simp), hrest, List.map_cons, total_cons, hv]
    · have hk : Entries.find? k r = some v := by simpa [Entries.find?, he] using hk
      have hfilter : (e :: r).filter (fun x => x.1 ≠ k) = e :: r.filter fun x => x.1 ≠ k := by
        simp [Ne.symm he]
      rw [hfilter, List.map_cons, List.map_cons, total_cons, total_cons, ih hr.2 hk]
      omega

/-- Where every entry stays and none counts fewer changes, all of them together do not either. -/
theorem total_le {t u : Table κ ν} (f : ν → Changes)
    (hstays : ∀ k, t.contains k = true → u.contains k = true)
    (hle : ∀ k v v', t.get? k = some v → u.get? k = some v' → (f v).count ≤ (f v').count) :
    (Changes.total (t.values.map f)).count ≤ (Changes.total (u.values.map f)).count := by
  have hboth : ∀ k v, t.get? k = some v → ∃ v', u.get? k = some v' ∧ (f v).count ≤ (f v').count := by
    intro k v hv
    obtain ⟨v', hv'⟩ := Table.contains_iff.mp (hstays k (Table.contains_iff.mpr ⟨v, hv⟩))
    exact ⟨v', hv', hle k v v' hv hv'⟩
  clear hstays hle
  -- an entry of the one list takes away its counterpart in the other.
  obtain ⟨l, hl⟩ := t
  simp only [Table.values, List.map_map]
  change ∀ k v, Entries.find? k l = some v → _ at hboth
  induction l generalizing u with
  | nil => exact Nat.zero_le _
  | cons e r ih =>
    have hr := List.pairwise_cons.mp hl
    obtain ⟨v, hv, hle⟩ := hboth e.1 e.2 (by simp [Entries.find?])
    have htotal := total_find? (f := f) u.ascending hv
    have hrest := ih (u := u.erase e.1) hr.2 fun k v hk => by
      have hne : ¬ k = e.1 := by
        rintro rfl
        rw [Entries.find?_eq_none_of_lt hr.1] at hk
        cases hk
      rw [Table.get?_erase, if_neg hne]
      exact hboth k v (by simpa [Entries.find?, hne] using hk)
    calc (Changes.total ((e :: r).map (f ∘ (·.2)))).count
        = (f e.2).count + (Changes.total (r.map (f ∘ (·.2)))).count := total_cons _ _
      _ ≤ (f v).count + (Changes.total ((u.erase e.1).entries.map (f ∘ (·.2)))).count :=
        Nat.add_le_add hle hrest
      _ = (Changes.total (u.entries.map (f ∘ (·.2)))).count := htotal.symm

end Total

theorem switchSummary_changes (n : Network) : n.switchSummary.changes = n.switchChanges := by
  unfold switchSummary
  split
  next h =>
    have hnil : n.switches.entries = [] := List.isEmpty_iff.mp h
    unfold switchChanges Table.values
    rw [hnil]
    rfl
  next =>
    split
    · rfl
    · rfl

/-- Without any egress there is nothing that could have changed. -/
theorem egressSummary?_count (n : Network) (w : Wiring) :
    ((n.egressSummary? w).map (·.changes.count)).getD 0 = n.egress.changes.count := by
  unfold egressSummary?
  dsimp only
  split
  next h =>
    have hnil : n.egress.entries = [] := Table.isEmpty_foldl_insert h
    unfold EgressGroup.changes Table.values
    rw [hnil]
    rfl
  next =>
    rw [Option.map_some, Option.getD_some]
    split
    · rfl
    · rfl
    · rfl

theorem dataplaneChanges_count (n : Network) (w : Wiring) :
    (n.dataplaneChanges w).count = n.egress.changes.count + n.switchChanges.count + n.linkChanges.count +
      n.topology.linkChanges.count + n.topology.rootChanges.count := by
  have hegress : (if (n.egressSummary? w).isSome then n.egress.changes else .none).count =
      n.egress.changes.count := by
    split
    · rfl
    next h =>
      rw [← egressSummary?_count n w, Option.not_isSome_iff_eq_none.mp h]
      rfl
  have hnil : (Changes.total []).count = 0 := rfl
  unfold dataplaneChanges
  simp only [total_cons, hnil, hegress]
  omega

namespace Grown

theorem switchChanges (h : Grown n m) : n.switchChanges.count ≤ m.switchChanges.count := by
  refine total_le Switch.changes h.persists.switches fun name s s' hs hs' => ?_
  have hle := h.counts (.switch name)
  simpa only [changesOf, switchAt, hs, hs', Option.getD_some] using hle

theorem linkChanges (h : Grown n m) : n.linkChanges.count ≤ m.linkChanges.count := by
  refine total_le TrackedLink.changes h.persists.links fun l y y' hy hy' => ?_
  have hle := h.counts (.link l)
  simpa only [changesOf, linkEntry, hy, hy', Option.getD_some] using hle

theorem egressChanges (h : Grown n m) : n.egress.changes.count ≤ m.egress.changes.count := by
  refine total_le EgressMember.changes h.persists.members fun e y y' hy hy' => ?_
  have hle := h.counts (.member e)
  simpa only [changesOf, memberAt, hy, hy', Option.getD_some] using hle

theorem dataplaneChanges (h : Grown n m) (w w' : Wiring) :
    (n.dataplaneChanges w).count ≤ (m.dataplaneChanges w').count := by
  have hswitches := h.switchChanges
  have hlinks := h.linkChanges
  have hegress := h.egressChanges
  have happlied : n.topology.linkChanges.count ≤ m.topology.linkChanges.count := h.counts .links
  have hroot : n.topology.rootChanges.count ≤ m.topology.rootChanges.count := h.counts .root
  rw [dataplaneChanges_count, dataplaneChanges_count]
  omega

end Grown
end Network

/-- At any time, whatever is done next, other than a restore: a count grows by one, at the time that the
operation gives, if what it counts has changed, and is left alone if not; of hosts every step of the
operation counts each pair of host and switch whose port it changes. Nothing that is counted and no VLAN
is ever lost, and so, until a restore, no summary counts fewer changes than before. -/
theorem Engine.run_counts (config : EngineConfig) (ops : List Operation) :
    let g := ((fresh config).run ops).1
    (∀ op, op.isRestore = false →
      (∀ now, op.time? = some now → ∀ x, Noted now g.network (g.perform op).1.network x) ∧
      (op.time? = none → ∀ x, Still g.network (g.perform op).1.network x) ∧
      ∀ before step after, op.steps = before ++ step :: after →
        ∃ moved, Moves (g.run before).1.network (g.run (before ++ [step])).1.network moved) ∧
    ∀ later, (∀ op ∈ later, op.isRestore = false) →
      let g' := (g.run later).1
      Persists g.network g'.network ∧
      g.network.switchSummary.changes.count ≤ g'.network.switchSummary.changes.count ∧
      (g.network.dataplaneSummary g.wiring).changes.count ≤
        (g'.network.dataplaneSummary g'.wiring).changes.count ∧
      ((g.network.egressSummary? g.wiring).map (·.changes.count)).getD 0 ≤
        ((g'.network.egressSummary? g'.wiring).map (·.changes.count)).getD 0 ∧
      g.network.hostSummary.changes.count ≤ g'.network.hostSummary.changes.count := by
  intro g
  have hfiled : g.network.Filed := Filed.kept.run config ops
  refine ⟨fun op live => ⟨fun now htime => (counts_perform live g htime).noted,
    fun htime => (g.quiet_perform htime).still, ?_⟩, fun later live => ?_⟩
  · intro before step after hsteps
    have hbefore : (g.run before).1.network.Filed := by
      have hall := Filed.kept.run config (ops ++ before)
      rw [run_append] at hall
      exact hall
    rw [run_append, run_singleton]
    exact moves_step hbefore live (hsteps ▸ List.mem_append_right _ List.mem_cons_self)
  · intro g'
    have hgrown : Grown g.network g'.network := grown_run hfiled live
    refine ⟨hgrown.persists, ?_, ?_, ?_, hgrown.hosts⟩
    · rw [switchSummary_changes, switchSummary_changes]
      exact hgrown.switchChanges
    · exact hgrown.dataplaneChanges g.wiring g'.wiring
    · rw [egressSummary?_count, egressSummary?_count]
      exact hgrown.egressChanges

end Fabric
