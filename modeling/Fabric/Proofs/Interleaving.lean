import Fabric.Proofs.LevelTriggered

/-! Reports about different switches may come in any order. Every report is about one switch, reads
and writes what the network holds about that switch (`Alike`), and adds to the count of host
changes. So reports about two switches commute, and however the streams of reports about all the
switches are merged the same comes out (`run_interleaved`). Links are between switches, but their
states are derived and do not tell how they came about. -/

namespace Fabric

open Network

/-- The switch that an update is about. -/
def Update.switch? : Update → Option String
  | .portState e _ | .learn e _ _ | .expire e _ | .lag e _ _ | .stackState e _ => some e.switch
  | .connection s _ _ | .reload s _ _ _ => some s
  | .stage _ | .vlanSamples _ => none

namespace Network

variable {config : EngineConfig} {w : Wiring} {now : Instant} {n m : Network} {s t : String}

/-! ## What is about one switch -/

/-- Two networks hold the same about a switch. -/
structure Alike (s : String) (n m : Network) : Prop where
  switch : n.switches.get? s = m.switches.get? s
  members : ∀ p, n.egress.get? ⟨s, p⟩ = m.egress.get? ⟨s, p⟩
  sightings : ∀ mac, n.sighting? mac s = m.sighting? mac s

namespace Alike

theorem refl (s : String) (n : Network) : Alike s n n := ⟨rfl, fun _ => rfl, fun _ => rfl⟩

theorem symm (h : Alike s n m) : Alike s m n :=
  ⟨h.switch.symm, fun p => (h.members p).symm, fun mac => (h.sightings mac).symm⟩

theorem trans {k : Network} (h : Alike s n m) (h' : Alike s m k) : Alike s n k :=
  ⟨h.switch.trans h'.switch, fun p => (h.members p).trans (h'.members p),
    fun mac => (h.sightings mac).trans (h'.sightings mac)⟩

theorem port? (h : Alike s n m) {e : Endpoint} (he : e.switch = s) : n.port? e = m.port? e := by
  rw [Network.port?, Network.port?, he, h.switch]

theorem stackState? (h : Alike s n m) {e : Endpoint} (he : e.switch = s) :
    n.stackState? e = m.stackState? e := by
  rw [Network.stackState?, Network.stackState?, h.port? he]

theorem macsAt (h : Alike s n m) {e : Endpoint} (he : e.switch = s) : n.macsAt e = m.macsAt e := by
  rw [Network.macsAt, Network.macsAt, h.port? he]

end Alike

/-- What is about a switch goes the same way from both networks, and so does the count of host
changes. -/
structure Parallel (s : String) (n m n' m' : Network) : Prop where
  alike : Alike s n' m'
  changes : ∃ k, n'.hostChanges = n.hostChanges + k ∧ m'.hostChanges = m.hostChanges + k

namespace Parallel

theorem refl (h : Alike s n m) : Parallel s n m n m := ⟨h, 0, rfl, rfl⟩

theorem trans {n' m' n'' m'' : Network} (h : Parallel s n m n' m') (h' : Parallel s n' m' n'' m'') :
    Parallel s n m n'' m'' := by
  obtain ⟨i, hn, hm⟩ := h.changes
  obtain ⟨j, hn', hm'⟩ := h'.changes
  refine ⟨h'.alike, i + j, ?_, ?_⟩
  · rw [hn', hn, Nat.add_assoc]
  · rw [hm', hm, Nat.add_assoc]

end Parallel

/-- An update about `s`: it does the same wherever the same is known about `s`, and leaves alone what
is known about other switches. -/
structure About (s : String) (f : Network → Network) : Prop where
  within : ∀ n m, Alike s n m → Parallel s n m (f n) (f m)
  beyond : ∀ n t, t ≠ s → Alike t (f n) n

namespace About

theorem id (s : String) : About s fun n => n :=
  ⟨fun _ _ h => .refl h, fun n t _ => .refl t n⟩

theorem comp {f g : Network → Network} (hf : About s f) (hg : About s g) : About s fun n => g (f n) where
  within n m h := (hf.within n m h).trans (hg.within _ _ (hf.within n m h).alike)
  beyond n t ht := (hg.beyond (f n) t ht).trans (hf.beyond n t ht)

/-- A choice by what is known about the switch. -/
theorem choose {α : Type} {r : Network → α} {f : α → Network → Network}
    (hr : ∀ n m, Alike s n m → r n = r m) (hf : ∀ a, About s (f a)) : About s fun n => f (r n) n where
  within n m h := by
    rw [hr n m h]
    exact (hf _).within n m h
  beyond n t ht := (hf (r n)).beyond n t ht

theorem ite {c : Network → Prop} [DecidablePred c] {f g : Network → Network}
    (hc : ∀ n m, Alike s n m → (c n ↔ c m)) (hf : About s f) (hg : About s g) :
    About s fun n => if c n then f n else g n where
  within n m h := by
    by_cases hn : c n
    · rw [if_pos hn, if_pos ((hc n m h).mp hn)]
      exact hf.within n m h
    · rw [if_neg hn, if_neg (mt (hc n m h).mpr hn)]
      exact hg.within n m h
  beyond n t ht := by
    by_cases hn : c n
    · rw [if_pos hn]
      exact hf.beyond n t ht
    · rw [if_neg hn]
      exact hg.beyond n t ht

theorem updateSwitch (s : String) (f : Switch → Switch) : About s (·.updateSwitch s f) where
  within n m h := by
    refine ⟨⟨?_, h.members, h.sightings⟩, 0, rfl, rfl⟩
    simp [Network.updateSwitch, Table.get?_upsert, h.switch]
  beyond n t ht := by
    refine ⟨?_, fun _ => rfl, fun _ => rfl⟩
    simp [Network.updateSwitch, Table.get?_upsert, ht]

theorem updatePort (e : Endpoint) (f : Port → Port) : About e.switch (·.updatePort e f) :=
  updateSwitch e.switch _

theorem refreshLinks (s : String) (w : Wiring) (now : Instant) : About s (·.refreshLinks w now) where
  within n m h := by
    rw [refreshLinks_eq, refreshLinks_eq m]
    exact ⟨⟨h.switch, h.members, h.sightings⟩, 0, rfl, rfl⟩
  beyond n t _ := by
    rw [refreshLinks_eq]
    exact ⟨rfl, fun _ => rfl, fun _ => rfl⟩

/-! ## Hosts -/

theorem forget (w : Wiring) (mac : Mac) (s : String) :
    About s fun n => (Network.forget w mac s n).network where
  within n m h := by
    have hsightings (k : Mac) : (Network.forget w mac s n).network.sighting? k s =
        (Network.forget w mac s m).network.sighting? k s := by
      rw [sighting?_forget, sighting?_forget, h.sightings]
    have hsame := h.sightings mac
    cases hx : m.sighting? mac s with
    | none =>
      rw [forget_none hx, forget_none (hsame.trans hx)]
      exact .refl h
    | some x =>
      rw [forget_some hx, forget_some (hsame.trans hx)] at hsightings ⊢
      refine ⟨⟨?_, h.members, hsightings⟩, 1, rfl, rfl⟩
      simp [withoutMac, h.switch]
  beyond n t ht := by
    have hsightings (k : Mac) : (Network.forget w mac s n).network.sighting? k t = n.sighting? k t := by
      rw [sighting?_forget, if_neg (fun h => ht h.2)]
    cases hx : n.sighting? mac s with
    | none =>
      rw [forget_none hx]
      exact .refl t n
    | some x =>
      rw [forget_some hx] at hsightings ⊢
      refine ⟨?_, fun _ => rfl, hsightings⟩
      simp [withoutMac, ht]

theorem forgetAll (w : Wiring) (macs : List Mac) (s : String) :
    About s fun n => (Network.forgetAll w macs s n).network := by
  induction macs with
  | nil => exact .id s
  | cons mac r ih =>
    have hstep (n : Network) : (Network.forgetAll w (mac :: r) s n).network =
        (Network.forgetAll w r s (Network.forget w mac s n).network).network := by
      rw [Network.forgetAll, Outcome.forEach_cons, Outcome.andThen_network]
      rfl
    simp only [hstep]
    exact (About.forget w mac s).comp ih

theorem clearPort (w : Wiring) (e : Endpoint) :
    About e.switch fun n => (Network.clearPort w e n).network := by
  have hcases (n : Network) : (Network.clearPort w e n).network =
      (Network.forgetAll w (n.macsAt e) e.switch n).network := by
    unfold Network.clearPort
    split
    next h => rw [h]; rfl
    next => rfl
  simp only [hcases]
  exact choose (r := (·.macsAt e)) (fun n m h => h.macsAt rfl) fun macs => forgetAll w macs e.switch

theorem record (w : Wiring) (now : Instant) (e : Endpoint) (mac : Mac) (t : Traits) :
    About e.switch fun n => (Network.record w now e mac t n).network where
  within n m h := by
    refine ⟨⟨?_, h.members, fun k => ?_⟩, ?_⟩
    · simp only [Network.record, sightings_getD, Network.updateSwitch, Table.get?_upsert, h.switch,
        h.sightings mac, if_true]
    · rw [sighting?_record, sighting?_record, h.sightings]
    · refine ⟨_, rfl, ?_⟩
      simp only [Network.record, sightings_getD, Network.updateSwitch, h.sightings mac]
  beyond n k hk := by
    refine ⟨?_, fun _ => rfl, fun m => ?_⟩
    · simp [Network.record, Network.updateSwitch, Table.get?_upsert, hk]
    · rw [sighting?_record, if_neg (fun h => hk h.2)]

theorem learn (w : Wiring) (now : Instant) (e : Endpoint) (mac : Mac) (t : Traits) :
    About e.switch fun n => (Network.learn w now e mac t n).network :=
  choose (r := (·.macsAt e))
    (f := fun macs n => (Network.record w now e mac t (Network.forgetAll w
      (if isAccess w e then macs.filter (· ≠ mac) else []) e.switch n).network).network)
    (fun _ _ h => h.macsAt rfl) fun _ => (forgetAll w _ e.switch).comp (record w now e mac t)

theorem expire (w : Wiring) (e : Endpoint) (mac : Mac) :
    About e.switch fun n => (Network.expire w e mac n).network := by
  have hcases (n : Network) : (Network.expire w e mac n).network =
      if (n.sighting? mac e.switch).any (·.port = e.port) then (Network.forget w mac e.switch n).network
      else n := by
    unfold Network.expire
    split <;> rfl
  rw [funext hcases]
  exact ite (fun n m h => by rw [h.sightings mac]) (forget w mac e.switch) (.id e.switch)

/-! ## Updates -/

theorem portState (w : Wiring) (now : Instant) (e : Endpoint) (up : Bool) :
    About e.switch fun n => (Network.portState w now e up n).network := by
  have hcases (n : Network) : (Network.portState w now e up n).network =
      if (n.port? e).any (·.up = some up) then n
      else if (!up && isAccess w e) = true then
        (Network.clearPort w e (n.updatePort e (notePort · now up))).network
      else n.updatePort e (notePort · now up) := by
    by_cases h : (n.port? e).any (·.up = some up) = true
    · rw [portState_same h, if_pos h]
      rfl
    · rw [portState_news h, if_neg h, Outcome.andThen_network]
      dsimp only
      split <;> rfl
  have hnote := updatePort e (notePort · now up)
  rw [funext hcases]
  exact ite (fun n m h => by rw [h.port? rfl]) (.id e.switch)
    (ite (fun _ _ _ => Iff.rfl) (hnote.comp (clearPort w e)) hnote)

theorem connection (now : Instant) (name : String) (dpId : Option UInt64) (connected : Bool) :
    About name (Network.connection now name dpId connected) :=
  updateSwitch name _

theorem reload (now : Instant) (name : String) (dpId : Option UInt64) (kind hashes : Option String) :
    About name (Network.reload now name dpId kind hashes) :=
  updateSwitch name _

theorem lag (now : Instant) (e : Endpoint) (state : Option LacpState) (role : Option LacpRole) :
    About e.switch (Network.lag now e state role) where
  within n m h := by
    have hmember : n.egress.get? e = m.egress.get? e := h.members e.port
    refine ⟨⟨h.switch, fun p => ?_, h.sightings⟩, 0, rfl, rfl⟩
    simp only [Network.lag, Table.get?_upsert, h.members p, hmember]
  beyond n t ht := by
    refine ⟨rfl, fun p => ?_, fun _ => rfl⟩
    have hne : ¬ (⟨t, p⟩ : Endpoint) = e := fun h => ht (congrArg Endpoint.switch h)
    simp only [Network.lag, Table.get?_upsert, if_neg hne]

theorem stackState (w : Wiring) (now : Instant) (e : Endpoint) (code : Int) :
    About e.switch (Network.stackState w now e code) := by
  cases hs : StackState.ofCode? code with
  | none =>
    have hcases (n : Network) : Network.stackState w now e code n = n := by
      rw [Network.stackState, hs]
    rw [funext hcases]
    exact .id e.switch
  | some x =>
    have hcases (n : Network) : Network.stackState w now e code n =
        if n.stackState? e = some x then n else (n.updatePort e (noteStack · x)).refreshLinks w now := by
      rw [Network.stackState, hs]
      rfl
    rw [funext hcases]
    exact ite (fun n m h => by rw [h.stackState? rfl]) (.id e.switch)
      ((updatePort e _).comp (refreshLinks e.switch w now))

end About

theorem about_apply (config : EngineConfig) (w : Wiring) (now : Instant) {u : Update} (hu : u.switch? = some s) :
    About s fun n => (u.apply config w now n).network := by
  cases u with
  | portState e up => cases hu; exact .portState w now e up
  | learn e mac t => cases hu; exact .learn w now e mac t
  | expire e mac => cases hu; exact .expire w e mac
  | lag e state role => cases hu; exact .lag now e state role
  | stackState e code => cases hu; exact .stackState w now e code
  | connection name dpId connected => cases hu; exact .connection now s dpId connected
  | reload name dpId kind hashes => cases hu; exact .reload now s dpId kind hashes
  | stage | vlanSamples => cases hu

/-! ## What is about all switches -/

/-- Two networks hold the same about every switch, and count as many host changes. -/
structure Same (n m : Network) : Prop where
  alike : ∀ s, Alike s n m
  changes : n.hostChanges = m.hostChanges

theorem Same.refl (n : Network) : Same n n := ⟨fun s => .refl s n, rfl⟩

theorem Same.trans {k : Network} (h : Same n m) (h' : Same m k) : Same n k :=
  ⟨fun s => (h.alike s).trans (h'.alike s), h.changes.trans h'.changes⟩

theorem About.same {f : Network → Network} (hf : About s f) (h : Same n m) : Same (f n) (f m) where
  alike t := by
    by_cases ht : t = s
    · subst ht
      exact (hf.within n m (h.alike t)).alike
    · exact ((hf.beyond n t ht).trans (h.alike t)).trans (hf.beyond m t ht).symm
  changes := by
    obtain ⟨k, hn, hm⟩ := (hf.within n m (h.alike s)).changes
    rw [hn, hm, h.changes]

/-- Updates about two switches commute. -/
theorem About.comm {f g : Network → Network} (hf : About s f) (hg : About t g) (hst : s ≠ t) (n : Network) :
    Same (f (g n)) (g (f n)) where
  alike k := by
    by_cases hs : k = s
    · subst hs
      exact (hf.within _ _ (hg.beyond n k hst)).alike.trans (hg.beyond (f n) k hst).symm
    · by_cases ht : k = t
      · subst ht
        exact (hf.beyond (g n) k hs).trans (hg.within _ _ (hf.beyond n k hs)).alike.symm
      · exact ((hf.beyond _ k hs).trans (hg.beyond n k ht)).trans
          ((hg.beyond _ k ht).trans (hf.beyond n k hs)).symm
  changes := by
    obtain ⟨i, hfg, hfn⟩ := (hf.within _ _ (hg.beyond n s hst)).changes
    obtain ⟨j, hgf, hgn⟩ := (hg.within _ _ (hf.beyond n t hst.symm)).changes
    rw [hfg, hgf, hfn, hgn]
    omega

end Network

/-! ## Streams -/

section Streams
variable {α : Type} {k : α → Option String} {f : Network → α → Network} {l l' : List α}

theorem foldl_same (hf : ∀ x ∈ l, ∃ s, About s (f · x)) {n m : Network} (h : Same n m) :
    Same (l.foldl f n) (l.foldl f m) := by
  induction l generalizing n m with
  | nil => exact h
  | cons x r ih =>
    obtain ⟨s, hx⟩ := hf x (by simp)
    exact ih (fun y hy => hf y (by simp [hy])) (hx.same h)

/-- What is about one switch may as well come ahead of what is about others. -/
theorem foldl_ahead {x : α} {s : String} (hx : About s (f · x))
    (hl : ∀ y ∈ l, ∃ t, About t (f · y) ∧ t ≠ s) (n : Network) :
    Same (l.foldl f (f n x)) (f (l.foldl f n) x) := by
  induction l generalizing n with
  | nil => exact .refl _
  | cons y r ih =>
    obtain ⟨t, hy, hts⟩ := hl y (by simp)
    have hrest : ∀ z ∈ r, ∃ t, About t (f · z) := fun z hz => (hl z (by simp [hz])).imp fun _ h => h.1
    exact (foldl_same hrest (hy.comm hx hts n)).trans (ih (fun z hz => hl z (by simp [hz])) (f n y))

/-- However streams that keep their own order are merged, the same comes out. -/
theorem foldl_merged (hf : ∀ x s, k x = some s → About s (f · x))
    (hl : ∀ x ∈ l, (k x).isSome) (hl' : ∀ x ∈ l', (k x).isSome)
    (order : ∀ s, l.filter (k · = some s) = l'.filter (k · = some s)) (n : Network) :
    Same (l.foldl f n) (l'.foldl f n) := by
  induction l generalizing l' n with
  | nil =>
    cases l' with
    | nil => exact .refl n
    | cons y r =>
      obtain ⟨s, hs⟩ := Option.isSome_iff_exists.mp (hl' y (by simp))
      have := order s
      simp [hs] at this
  | cons x r ih =>
    obtain ⟨s, hs⟩ := Option.isSome_iff_exists.mp (hl x (by simp))
    -- the first of its stream in one order is the first of it in the other
    have hfirst := order s
    rw [List.filter_cons_of_pos (by simpa using hs)] at hfirst
    obtain ⟨a, b, rfl, ha, -, hb⟩ := List.filter_eq_cons_iff.mp hfirst.symm
    have hother : ∀ y ∈ a, ∃ t, About t (f · y) ∧ t ≠ s := by
      intro y hy
      obtain ⟨t, ht⟩ := Option.isSome_iff_exists.mp (hl' y (by simp [hy]))
      refine ⟨t, hf y t ht, ?_⟩
      rintro rfl
      exact ha y hy (by simpa using ht)
    have hab : ∀ y ∈ a ++ b, (k y).isSome := by
      intro y hy
      rcases List.mem_append.mp hy with hy | hy
      · exact hl' y (by simp [hy])
      · exact hl' y (by simp [hy])
    have hrest (t : String) : r.filter (k · = some t) = (a ++ b).filter (k · = some t) := by
      have hall := order t
      by_cases ht : t = s
      · subst ht
        have hnone : a.filter (k · = some t) = [] := List.filter_eq_nil_iff.mpr ha
        rw [List.filter_append, hnone, List.nil_append, hb]
      · have hx : ¬ k x = some t := by rw [hs]; simpa using Ne.symm ht
        simpa [List.filter_append, List.filter_cons, hx] using hall
    have hahead := foldl_ahead (hf x s hs) hother n
    have hmoved := foldl_same (l := b) (f := f) (fun y hy => by
      obtain ⟨t, ht⟩ := Option.isSome_iff_exists.mp (hl' y (by simp [hy]))
      exact ⟨t, hf y t ht⟩) hahead
    have hsame := (ih (fun y hy => hl y (by simp [hy])) hab hrest (f n x)).trans
      (by rw [List.foldl_append]; exact hmoved)
    rw [List.foldl_append]
    exact hsame

end Streams
/-! ## Links -/

/-- What is about a switch moves no topology and brings no link that is not tracked already. -/
theorem Network.Level.apply_switch {w : Wiring} {n : Network} (h : Level w n) (config : EngineConfig)
    (now : Instant) {u : Update} (hu : u.switch?.isSome = true) :
    (u.apply config w now n).network.topology = n.topology ∧
      ∀ l, (u.apply config w now n).network.links.contains l = n.links.contains l := by
  cases hs : u.isStack with
  | false =>
    refine ⟨Update.topology_apply config w now hs n, fun l => ?_⟩
    rw [Update.links_apply config w now hs n]
  | true =>
    cases u with
    | stackState e code =>
      show (Network.stackState w now e code n).topology = _ ∧
        ∀ l, (Network.stackState w now e code n).links.contains l = _
      rcases stackState_cases w now e code n with heq | ⟨x, heq⟩
      · rw [heq]
        exact ⟨rfl, fun _ => rfl⟩
      · rw [heq]
        refine ⟨refreshLinks_topology _ w now, fun l => ?_⟩
        have hlinks : (n.updatePort e (noteStack · x)).tracks w l = n.tracks w l := rfl
        have hwired := h.wired l
        have happlied := h.applied l
        rw [contains_refreshLinks, hlinks, tracks]
        cases hl : n.links.contains l <;> simp_all
    | stage => cases hu
    | _ => cases hs

namespace Engine

/-- An engine after updates, each with a time of its own. -/
theorem run_timed (g : Engine) (l : List (Instant × Update)) :
    (g.run (l.map fun x => .update x.1 x.2)).1 =
      { g with
        network := l.foldl (fun n x => (x.2.apply g.config g.wiring x.1 n).network) g.network } := by
  induction l generalizing g with
  | nil => rfl
  | cons x r ih =>
    have hstep : (g.update x.1 x.2).1 =
        { g with network := (x.2.apply g.config g.wiring x.1 g.network).network } := by
      rw [update_eq]
    rw [List.map_cons, run_cons, List.foldl_cons]
    show ((g.update x.1 x.2).1.run _).1 = _
    rw [ih, hstep]

theorem run_timed_links {g : Engine} (h : Level g.wiring g.network) {l : List (Instant × Update)}
    (hl : ∀ x ∈ l, x.2.switch?.isSome = true) :
    let n := (g.run (l.map fun x => .update x.1 x.2)).1.network
    Level g.wiring n ∧ n.topology = g.network.topology ∧
      ∀ k, n.links.contains k = g.network.links.contains k := by
  induction l generalizing g with
  | nil => exact ⟨h, rfl, fun _ => rfl⟩
  | cons x r ih =>
    have hnetwork : (g.update x.1 x.2).1.network = (x.2.apply g.config g.wiring x.1 g.network).network := by
      rw [update_eq]
    have hx := h.apply_switch g.config x.1 (hl x (by simp))
    have hlevel := h.update g.config x.1 x.2
    rw [← hnetwork] at hx hlevel
    have hrest := ih (g := (g.update x.1 x.2).1) hlevel fun y hy => hl y (by simp [hy])
    rw [List.map_cons, run_cons]
    exact ⟨hrest.1, hrest.2.1.trans hx.1, fun k => (hrest.2.2 k).trans (hx.2 k)⟩

/-- Take any engine that there can be, and reports about switches that come to it in two orders,
each with its own time, such that the reports about any one switch come in the same order in both.
Then both lead to the same switches with their ports, the same egress members, the same sightings of
hosts, as many host changes, and every link in the same state. -/
theorem run_interleaved (config : EngineConfig) (ops : List Operation) (l l' : List (Instant × Update))
    (own : ∀ x ∈ l, x.2.switch?.isSome = true) (own' : ∀ x ∈ l', x.2.switch?.isSome = true)
    (order : ∀ s, l.filter (·.2.switch? = some s) = l'.filter (·.2.switch? = some s)) :
    let g := ((fresh config).run ops).1
    let n := (g.run (l.map fun x => .update x.1 x.2)).1.network
    let m := (g.run (l'.map fun x => .update x.1 x.2)).1.network
    n.switches = m.switches ∧ n.egress = m.egress ∧ (∀ mac s, n.sighting? mac s = m.sighting? mac s) ∧
      n.hostChanges = m.hostChanges ∧
      ∀ k, (n.links.get? k).map (·.state) = (m.links.get? k).map (·.state) := by
  intro g n m
  have hsame : Same n m := by
    show Same (g.run _).1.network (g.run _).1.network
    rw [run_timed, run_timed]
    exact foldl_merged (k := fun x => x.2.switch?)
      (fun (x : Instant × Update) s hs => about_apply g.config g.wiring x.1 hs) own own' order g.network
  have hswitches : n.switches = m.switches := Table.ext_get? fun s => (hsame.alike s).switch
  have hegress : n.egress = m.egress := Table.ext_get? fun e => (hsame.alike e.switch).members e.port
  refine ⟨hswitches, hegress, fun mac s => (hsame.alike s).sightings mac, hsame.changes, fun k => ?_⟩
  have hlevel : Level g.wiring g.network := Level.kept.run config ops
  obtain ⟨hn, htop, hkeys⟩ := run_timed_links hlevel own
  obtain ⟨hm, htop', hkeys'⟩ := run_timed_links hlevel own'
  have happlied : n.topology.applied = m.topology.applied := by
    show (g.run _).1.network.topology.applied = (g.run _).1.network.topology.applied
    rw [htop, htop']
  have hstate : n.linkState k = m.linkState k :=
    Level.linkState_congr happlied (fun e => (hsame.alike e.switch).stackState? rfl) k
  have hkey : n.links.contains k = m.links.contains k := (hkeys k).trans (hkeys' k).symm
  cases hx : n.links.get? k with
  | none =>
    cases hy : m.links.get? k with
    | none => rfl
    | some y => simp [Table.contains, hx, hy] at hkey
  | some x =>
    cases hy : m.links.get? k with
    | none => simp [Table.contains, hx, hy] at hkey
    | some y =>
      rw [Option.map_some, Option.map_some, hn.current k x hx, hm.current k y hy]
      exact congrArg some hstate

section Small

/-- A host seen by both switches, the two ends of a stack link, and a port that goes down. -/
def reportsOne : List (Instant × Update) :=
  [ (1, .learn ⟨"sw1", 10⟩ ⟨"0e:01"⟩ ⟨none, some 100⟩),
    (2, .stackState ⟨"sw1", 1⟩ 3),
    (3, .connection "sw1" (some 1) true) ]

def reportsTwo : List (Instant × Update) :=
  [ (9, .learn ⟨"sw2", 10⟩ ⟨"0e:01"⟩ ⟨none, some 200⟩),
    (8, .stackState ⟨"sw2", 1⟩ 3),
    (7, .portState ⟨"sw2", 10⟩ false) ]

theorem run_interleaved_small :
    let g := ((fresh .usual).run [.configure 0 smallWiring]).1
    let n := (g.run ((reportsOne ++ reportsTwo).map fun x => .update x.1 x.2)).1.network
    let m := (g.run ((reportsTwo ++ reportsOne).map fun x => .update x.1 x.2)).1.network
    n.switches = m.switches ∧ n.egress = m.egress ∧ (∀ mac s, n.sighting? mac s = m.sighting? mac s) ∧
      n.hostChanges = m.hostChanges ∧
      ∀ k, (n.links.get? k).map (·.state) = (m.links.get? k).map (·.state) := by
  have order (s : String) : (reportsOne ++ reportsTwo).filter (·.2.switch? = some s) =
      (reportsTwo ++ reportsOne).filter (·.2.switch? = some s) := by
    by_cases hone : "sw1" = s
    · subst hone
      rfl
    · have hnone : reportsOne.filter (·.2.switch? = some s) = [] := by
        simp [reportsOne, Update.switch?, hone]
      rw [List.filter_append, List.filter_append, hnone, List.nil_append, List.append_nil]
  exact run_interleaved .usual [.configure 0 smallWiring] (reportsOne ++ reportsTwo)
    (reportsTwo ++ reportsOne) (by decide) (by decide) order

end Small
end Engine
end Fabric
