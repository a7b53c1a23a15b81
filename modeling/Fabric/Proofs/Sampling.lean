import Fabric.Proofs.Restore

/-! What is known of the packets of a VLAN. Samples come in batches, of several VLANs at once and some of
none that could be told; a batch does to the counters of each VLAN what the readings of this VLAN in it do,
in order (`get?_foldl_vlanSample`). Nothing else touches them but a restore that has every family, which
begins again with the readings of the snapshot (`perform_readings`). Along a run the counters of a VLAN are
therefore its readings since the last such restore, taken in one after the other, and of these only the last
two still matter (`run_sampled`). -/

namespace Fabric

open Network

/-- A packet count, and when it was taken in. -/
structure Reading where
  packets : Float
  taken : Instant

/-- What a batch of samples says of a VLAN. -/
def readingsOf (v : UInt16) (now : Instant) (samples : List Sample) : List Reading :=
  (samples.filter (vlanOf? · = some v)).map fun s => ⟨s.value, now⟩

namespace VlanCounters

/-- The counters after a first reading and after those that follow. -/
def ofReadings? (threshold : Option Float) : List Reading → Option VlanCounters
  | [] => none
  | r :: rs => some (rs.foldl (fun c r => c.update r.packets r.taken threshold) (.first r.packets r.taken))

/-- The counters, if there are any, after one more reading. -/
def take (threshold : Option Float) : Option VlanCounters → Reading → Option VlanCounters
  | none, r => some (.first r.packets r.taken)
  | some c, r => some (c.update r.packets r.taken threshold)

variable {threshold : Option Float}

theorem foldl_take_some (c : VlanCounters) (rs : List Reading) :
    rs.foldl (take threshold) (some c) =
      some (rs.foldl (fun c r => c.update r.packets r.taken threshold) c) := by
  induction rs generalizing c with
  | nil => rfl
  | cons r rs ih => exact ih _

theorem ofReadings?_eq (rs : List Reading) : ofReadings? threshold rs = rs.foldl (take threshold) none := by
  cases rs with
  | nil => rfl
  | cons r rs => exact (foldl_take_some _ rs).symm

theorem ofReadings?_append (rs rs' : List Reading) :
    ofReadings? threshold (rs ++ rs') = rs'.foldl (take threshold) (ofReadings? threshold rs) := by
  rw [ofReadings?_eq, ofReadings?_eq, List.foldl_append]

theorem ofReadings?_snoc (threshold : Option Float) (rs : List Reading) (r : Reading) :
    ∃ c, ofReadings? threshold (rs ++ [r]) = some c ∧ c.packets = r.packets ∧ c.sampledAt = r.taken := by
  rw [ofReadings?_append]
  cases ofReadings? threshold rs with
  | none => exact ⟨_, rfl, rfl, rfl⟩
  | some c => exact ⟨_, rfl, rfl, rfl⟩

/-- Of counters an update reads the count and the time and nothing else. -/
theorem update_congr {c d : VlanCounters} (hpackets : c.packets = d.packets)
    (htaken : c.sampledAt = d.sampledAt) (packets : Float) (now : Instant) :
    c.update packets now threshold = d.update packets now threshold := by
  unfold update
  rw [hpackets, htaken]

/-- All but the last two readings are forgotten. -/
theorem ofReadings?_last (rs : List Reading) (r r' : Reading) :
    ofReadings? threshold (rs ++ [r, r']) =
      some ((first r.packets r.taken).update r'.packets r'.taken threshold) := by
  obtain ⟨c, hc, hpackets, htaken⟩ := ofReadings?_snoc threshold rs r
  rw [List.append_cons, ofReadings?_append, hc]
  exact congrArg some (update_congr hpackets htaken _ _)

end VlanCounters

namespace Network

open VlanCounters

variable {w : Wiring} {now : Instant} {n : Network}

/-! ## One batch -/

theorem readingsOf_cons (v : UInt16) (s : Sample) (r : List Sample) :
    readingsOf v now (s :: r) =
      if vlanOf? s = some v then ⟨s.value, now⟩ :: readingsOf v now r else readingsOf v now r := by
  unfold readingsOf
  rw [List.filter_cons]
  by_cases h : vlanOf? s = some v <;> simp [h]

/-- Each VLAN takes in what is said of it. -/
theorem get?_foldl_vlanSample (threshold : Option Float) (v : UInt16) (samples : List Sample)
    (t : Table UInt16 VlanCounters) :
    (samples.foldl (vlanSample threshold now) t).get? v =
      (readingsOf v now samples).foldl (take threshold) (t.get? v) := by
  induction samples generalizing t with
  | nil => rfl
  | cons s r ih =>
    rw [List.foldl_cons, ih, readingsOf_cons]
    unfold vlanSample
    cases hvlan : vlanOf? s with
    | none => rw [if_neg nofun]
    | some u =>
      dsimp only
      rw [Table.get?_insert]
      by_cases hv : u = v
      · subst hv
        rw [if_pos rfl, if_pos rfl, List.foldl_cons]
        congr 1
        cases t.get? u <;> rfl
      · rw [if_neg (Ne.symm hv), if_neg (by simpa using hv)]

/-! ## What leaves the counters alone -/

theorem vlans_forget (mac : Mac) (switch : String) (n : Network) :
    (forget w mac switch n).network.vlans = n.vlans := by
  unfold forget
  cases n.sighting? mac switch <;> rfl

theorem vlans_forgetAll (macs : List Mac) (switch : String) (n : Network) :
    (forgetAll w macs switch n).network.vlans = n.vlans :=
  Outcome.forEach_keeps (P := fun m => m.vlans = n.vlans)
    (fun mac _ m hm => (vlans_forget mac switch m).trans hm) rfl

theorem vlans_clearPort (e : Endpoint) (n : Network) : (clearPort w e n).network.vlans = n.vlans := by
  unfold clearPort
  split
  · rfl
  · exact vlans_forgetAll _ _ n

theorem vlans_portState (e : Endpoint) (up : Bool) (n : Network) :
    (portState w now e up n).network.vlans = n.vlans := by
  unfold portState
  split
  · rfl
  · rw [Outcome.andThen_network]
    split
    · exact vlans_clearPort e _
    · rfl

theorem vlans_refreshLinks (n : Network) : (n.refreshLinks w now).vlans = n.vlans := by
  rw [refreshLinks_eq]

theorem vlans_stackState (e : Endpoint) (code : Int) (n : Network) :
    (stackState w now e code n).vlans = n.vlans := by
  rcases stackState_cases w now e code n with h | ⟨s, h⟩
  · rw [h]
  · rw [h, vlans_refreshLinks]
    rfl

theorem vlans_applyTopology (t : Topology) (n : Network) : (n.applyTopology w now t).1.vlans = n.vlans := by
  by_cases h : n.topology.hash? = some t.hash
  · rw [applyTopology_same h]
  · rw [applyTopology_new h]
    exact vlans_refreshLinks _

theorem vlans_heartbeat (window : Nat) (n : Network) : (n.heartbeat w window now).1.vlans = n.vlans := by
  rcases heartbeat_cases n w window now with h | h | ⟨status, h⟩
  · rw [h]
  · rw [h]
    rfl
  · rw [h, vlans_refreshLinks]

end Network

/-! ## One operation -/

/-- What an update says of a VLAN. -/
def Update.readings (v : UInt16) (now : Instant) : Update → List Reading
  | .vlanSamples l => readingsOf v now l
  | _ => []

theorem Update.get?_vlans_apply (config : EngineConfig) (w : Wiring) (now : Instant) (u : Update) (n : Network)
    (v : UInt16) :
    (u.apply config w now n).network.vlans.get? v =
      (u.readings v now).foldl (VlanCounters.take config.threshold) (n.vlans.get? v) := by
  have same {m : Network} (h : m.vlans = n.vlans) : m.vlans.get? v = n.vlans.get? v := by rw [h]
  cases u with
  | portState e up => exact same (vlans_portState e up n)
  | learn e mac t => exact same (vlans_forgetAll _ _ n)
  | expire e mac =>
    refine same ?_
    show (Network.expire w e mac n).network.vlans = n.vlans
    unfold Network.expire
    split
    · exact vlans_forget mac e.switch n
    · rfl
  | stackState e code => exact same (vlans_stackState e code n)
  | vlanSamples l => exact get?_foldl_vlanSample config.threshold v l n.vlans
  | lag | stage | connection | reload => rfl

/-- No event has packet counts in it. -/
theorem Event.readings_updates (e : Event) (v : UInt16) (now : Instant) :
    ∀ u ∈ e.updates, u.readings v now = [] := by
  have hreport (r : Report) : ∀ u ∈ r.updates, u.readings v now = [] := by
    intro u hu
    cases r with
    | portsStatus s d ps =>
      obtain ⟨x, -, rfl⟩ := List.mem_map.mp hu
      rfl
    | learnedMacs s ls =>
      obtain ⟨x, -, rfl⟩ := List.mem_map.mp hu
      rfl
    | _ =>
      rw [List.mem_singleton.mp hu]
      rfl
  intro u hu
  unfold updates at hu
  cases hfirst : e.reports.head? with
  | none =>
    rw [hfirst] at hu
    cases hu
  | some r =>
    rw [hfirst] at hu
    exact hreport r u hu

namespace Operation

/-- What is known of a VLAN after an operation, with what was known before it. A restore that has every
family is a reset: it forgets what was known, and takes in the samples of the snapshot. -/
def readings (vlanMetric : String) (v : UInt16) (known : List Reading) : Operation → List Reading
  | .update now u => known ++ u.readings v now
  | .restore now s =>
    if (Family.metrics vlanMetric).all s.contains then readingsOf v now (s.samples vlanMetric) else known
  | .dispatch _ | .configure .. | .authorize .. | .heartbeat _ | .setReadiness _ => known

end Operation

/-- The readings of a VLAN since the last reset. -/
def readings (vlanMetric : String) (v : UInt16) (ops : List Operation) : List Reading :=
  ops.foldl (Operation.readings vlanMetric v) []

namespace Engine

open VlanCounters

variable {g : Engine} {v : UInt16} {known : List Reading}

theorem get?_vlans_forEach {config : EngineConfig} {w : Wiring} {now : Instant} {us : List Update}
    (h : ∀ u ∈ us, u.readings v now = []) (n : Network) :
    (Outcome.forEach us (Update.apply config w now) n).network.vlans.get? v = n.vlans.get? v := by
  refine Outcome.forEach_keeps (P := fun m => m.vlans.get? v = n.vlans.get? v) (fun u hu m hm => ?_) rfl
  rw [Update.get?_vlans_apply, h u hu]
  exact hm

theorem get?_vlans_restore (g : Engine) (now : Instant) {s : Snapshot}
    (h : (Family.metrics g.config.vlanMetric).all s.contains = true) :
    (g.restore now s).1.network.vlans.get? v =
      ofReadings? g.config.threshold (readingsOf v now (s.samples g.config.vlanMetric)) := by
  -- all that is settled before the samples of VLANs are taken in says nothing of them
  have hreports : ∀ u ∈ s.sampleUpdates g.config.vlanMetric ++ s.lagUpdates g.config.vlanMetric,
      u.readings v now = [] := by
    intro u hu
    have hreport := isReport_reports g.config s u hu
    cases u with
    | vlanSamples => cases hreport
    | _ => rfl
  have hnone : (reported g.config g.wiring now s).network.vlans.get? v = none :=
    get?_vlans_forEach hreports .empty
  show (g.network.restore g.config g.wiring now s).1.network.vlans.get? v = _
  rw [restore_outcome g.config g.wiring now (List.all_eq_true.mp h), Outcome.map_network, finish, vlanSamples]
  dsimp only
  rw [get?_foldl_vlanSample, vlans_applyTopology, hnone, ofReadings?_eq]

theorem perform_readings (h : g.network.vlans.get? v = ofReadings? g.config.threshold known) (op : Operation) :
    (g.perform op).1.network.vlans.get? v =
      ofReadings? g.config.threshold (op.readings g.config.vlanMetric v known) := by
  cases op with
  | update now u =>
    rw [perform, update_eq, Operation.readings, ofReadings?_append, ← h]
    exact u.get?_vlans_apply g.config g.wiring now g.network v
  | dispatch e =>
    exact (get?_vlans_forEach (e.readings_updates v _) g.network).trans h
  | configure now w =>
    show (g.network.refreshLinks w now).vlans.get? v = _
    rw [vlans_refreshLinks]
    exact h
  | authorize mac a =>
    rw [perform_authorize]
    unfold Network.authorize
    cases g.network.hosts.get? mac <;> exact h
  | heartbeat now =>
    show (g.network.heartbeat g.wiring g.config.window now).1.vlans.get? v = _
    rw [vlans_heartbeat]
    exact h
  | restore now s =>
    by_cases hall : (Family.metrics g.config.vlanMetric).all s.contains = true
    · rw [Operation.readings, if_pos hall]
      exact g.get?_vlans_restore now hall
    · have hkept := restore_missing g.config g.wiring now (mt List.all_eq_true.mpr hall) g.network
      rw [Operation.readings, if_neg hall, ← h]
      show (g.network.restore g.config g.wiring now s).1.network.vlans.get? v = _
      rw [hkept]
      rfl
  | setReadiness r => exact h

theorem run_readings (h : g.network.vlans.get? v = ofReadings? g.config.threshold known)
    (ops : List Operation) :
    (g.run ops).1.network.vlans.get? v =
      ofReadings? g.config.threshold (ops.foldl (Operation.readings g.config.vlanMetric v) known) := by
  induction ops generalizing g known with
  | nil => exact h
  | cons op r ih =>
    have hop := perform_readings h op
    rw [← perform_config g op] at hop
    rw [run_cons, List.foldl_cons, ih hop, perform_config]

/-- After any run the counters of a VLAN are those of its readings since the last reset: of the first one,
updated with each that came later, in order, at its time and with the configured threshold, whatever was
said of other VLANs or of none. So the count and the time are the last that were read, the rate and whether
it floods are told by the last two readings alone, and a VLAN that was read once does not flood. The times are
any whole milliseconds, and the rate is over the milliseconds between two of them. -/
theorem run_sampled (config : EngineConfig) (ops : List Operation) (v : UInt16) :
    let c := ((fresh config).run ops).1.network.vlans.get? v
    let known := readings config.vlanMetric v ops
    c = ofReadings? config.threshold known ∧
    (∀ rs r, known = rs ++ [r] → ∃ x, c = some x ∧ x.packets = r.packets ∧ x.sampledAt = r.taken) ∧
    (∀ rs r r', known = rs ++ [r, r'] →
      c = some ((first r.packets r.taken).update r'.packets r'.taken config.threshold)) ∧
    ∀ r, known = [r] → c = some ⟨r.packets, 0, false, r.taken⟩ := by
  intro c known
  have hfresh : (fresh config).network.vlans.get? v = ofReadings? config.threshold [] := rfl
  have hc : c = ofReadings? config.threshold known := run_readings hfresh ops
  refine ⟨hc, fun rs r hknown => ?_, fun rs r r' hknown => ?_, fun r hknown => ?_⟩
  · rw [hc, hknown]
    exact ofReadings?_snoc config.threshold rs r
  · rw [hc, hknown, ofReadings?_last]
  · rw [hc, hknown]
    rfl

section Small

def packetSample (vlan : String) (packets : Float) : Sample := ⟨.ofList [("vlan", vlan)], packets⟩

def strictConfig : EngineConfig := { EngineConfig.usual with threshold := some 50 }

/-- Two batches about VLAN 7 and others, with a sample of no VLAN in each, and a restore in between that
has no metrics. -/
def smallBatches : List Operation :=
  [ .update 0 (.vlanSamples [packetSample "7" 100, packetSample "8" 3, packetSample "seven" 9]),
    .restore 500 ∅,
    .update 1000 (.vlanSamples [packetSample "9" 4, ⟨∅, 9⟩, packetSample "7" 5000]) ]

theorem run_sampled_small :
    let vlans := ((fresh strictConfig).run smallBatches).1.network.vlans
    let known := fun v => readings strictConfig.vlanMetric v smallBatches
    known 7 = [] ++ [⟨100, 0⟩, ⟨5000, 1000⟩] ∧
      vlans.get? 7 = some ((first 100 0).update 5000 1000 (some 50)) ∧
      known 9 = [⟨4, 1000⟩] ∧ vlans.get? 9 = some ⟨4, 0, false, 1000⟩ := by
  intro vlans known
  have hseven : known 7 = [] ++ [⟨100, 0⟩, ⟨5000, 1000⟩] := rfl
  have hnine : known 9 = [⟨4, 1000⟩] := rfl
  exact ⟨hseven, (run_sampled strictConfig smallBatches 7).2.2.1 [] ⟨100, 0⟩ ⟨5000, 1000⟩ hseven,
    hnine, (run_sampled strictConfig smallBatches 9).2.2.2 ⟨4, 1000⟩ hnine⟩

end Small
end Engine
end Fabric
