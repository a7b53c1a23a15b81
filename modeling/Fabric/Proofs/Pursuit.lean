import Fabric.Proofs.Abreast

/-! Following the feed from a restore on. A restore puts the network of the snapshot in place, but
the feed goes on with what it delivered before: news of a port that says what was delivered last of
it is dropped, whatever the snapshot says. So a port has the state that was reported last since the
restore unless all that was reported since is what was delivered before; then it has the restored
one (`run_upState?`), and it need not be the one reported (`news_missed`). -/

namespace Fabric

open Network Feed

/-- A monitor that follows the feed, with what it was when it was restored last and the lines that
were read since. -/
structure Pursuit where
  base : Monitor
  monitor : Monitor
  lines : List (List UInt8)

/-- What a monitor meets while it follows: something comes in, the other side goes away, the regular
work falls due, or it is time to ask for an event and wait at most so long for it. -/
inductive Occasion where
  | arrive (bytes : List UInt8)
  | hangUp
  | beat (s : Surroundings)
  | ask (s : Surroundings) (ms : Nat)

namespace Pursuit

/-- Just after a restore. -/
def begin (m : Monitor) : Pursuit := ⟨m, m, []⟩

/-- The monitor goes on, and what its feed has read meanwhile counts. -/
def goOn (p : Pursuit) (m : Monitor) : Pursuit :=
  let feed := p.monitor.feed
  { p with monitor := m, lines := p.lines ++ feed.lines.take (feed.lines.length - m.feed.lines.length) }

/-- Takes in an event, or restores the state after a gap. There is no pursuit any more once that
fails. -/
def ask (p : Pursuit) (s : Surroundings) (ms : Nat) : Option Pursuit :=
  match p.monitor.feed.await ms with
  | (feed, .event e) => some (p.goOn (Monitor.dispatch { p.monitor with feed := feed } e))
  | (feed, .fault (.gap _ _)) =>
    match Monitor.restore { p.monitor with feed := feed } s with
    | (m, .ok horizon) => some (begin (m.setHorizon horizon))
    | (_, .error _) => none
  | (feed, _) => some (p.goOn { p.monitor with feed := feed })

def meet (p : Pursuit) : Occasion → Option Pursuit
  | .arrive bytes => some { p with monitor := p.monitor.receive bytes }
  | .hangUp => some { p with monitor := p.monitor.hangUp }
  | .beat s => some { p with monitor := p.monitor.heartbeat s }
  | .ask s ms => p.ask s ms

def run (p : Pursuit) : List Occasion → Option Pursuit
  | [] => some p
  | o :: r => (p.meet o).bind (·.run r)

/-- What is said of a place by the records that were let in since the restore. -/
def news (p : Pursuit) (place : Endpoint) : List (PortId × Bool) :=
  (inSequence p.base.feed.horizon (records p.lines)).flatMap
    (Event.portNews p.monitor.feed.config.capacity place)

/-- A horizon is set, and the monitor is abreast of what was read since. -/
structure Sound (p : Pursuit) : Prop where
  horizon : ∃ h, p.base.feed.horizon = some h
  abreast : ∃ rs es, Abreast p.base p.lines rs es p.monitor.feed p.monitor.engine

/-- After a restore there is nothing to catch up with. -/
theorem sound_begin {m : Monitor} {h : UInt64} (hundelayed : Undelayed m.feed) (hqueue : m.feed.queue = [])
    (hhorizon : m.feed.horizon = some h) (hlast : m.feed.lastId = none) : (begin m).Sound where
  horizon := ⟨h, hhorizon⟩
  abreast := by
    refine ⟨[], [], .nil _, by simp, ?_, ?_, rfl, hundelayed, by simp, fun id => ?_, fun _ place => ?_⟩
    · show m.feed.lastId.or m.feed.horizon = _
      rw [hlast]
      rfl
    · exact hqueue.symm
    · rfl
    · simp [stateAfter, begin]

theorem restore_begin {m n : Monitor} {s : Surroundings} {h : UInt64} (hundelayed : Undelayed m.feed)
    (hqueue : m.feed.queue = []) (hrestore : m.restore s = (n, .ok h)) : (begin (n.setHorizon h)).Sound := by
  have hfeed := m.restore_feed s
  rw [hrestore] at hfeed
  dsimp only at hfeed
  have hset : (n.setHorizon h).feed = m.feed.setHorizon h := by rw [← hfeed]; rfl
  exact sound_begin (by rw [hset]; exact hundelayed) (by rw [hset]; exact hqueue) (by rw [hset]; rfl)
    (by rw [hset]; rfl)

theorem Sound.goOn {p : Pursuit} {m : Monitor} (hp : p.Sound)
    (h : ∃ done rs es, p.monitor.feed.lines = done ++ m.feed.lines ∧
      Abreast p.base (p.lines ++ done) rs es m.feed m.engine) : (p.goOn m).Sound := by
  obtain ⟨done, rs, es, hdone, h⟩ := h
  have htake : p.monitor.feed.lines.take (p.monitor.feed.lines.length - m.feed.lines.length) = done := by
    simp [hdone]
  refine ⟨hp.horizon, rs, es, ?_⟩
  show Abreast p.base (p.lines ++ _) rs es m.feed m.engine
  rwa [htake]

theorem Sound.ask {p q : Pursuit} (hp : p.Sound) {s : Surroundings} {ms : Nat} (h : p.ask s ms = some q) :
    q.Sound := by
  obtain ⟨rs, es, habreast⟩ := hp.abreast
  have hanswer := habreast.await ms
  unfold Pursuit.ask at h
  split at h
  next feed e heq =>
    cases h
    rw [heq] at hanswer
    exact hp.goOn hanswer
  next feed a b heq =>
    rw [heq] at hanswer
    obtain ⟨_, hundelayed, hqueue⟩ := hanswer
    split at h
    next m horizon hrestore =>
      cases h
      exact restore_begin hundelayed hqueue hrestore
    next => cases h
  next feed d hevent hgap heq =>
    cases h
    rw [heq] at hanswer
    cases d with
    | event e => exact absurd rfl (hevent e)
    | idle => exact hp.goOn hanswer
    | fault x =>
      cases x with
      | gap a b => exact absurd rfl (hgap a b)
      | _ => exact hp.goOn hanswer

theorem upState?_heartbeat (n : Network) (w : Wiring) (window : Nat) (now : Instant) (place : Endpoint) :
    (n.heartbeat w window now).1.upState? place = n.upState? place := by
  rcases heartbeat_cases n w window now with h | h | ⟨_, h⟩ <;> rw [h]
  · rfl
  · rw [refreshLinks_eq]
    rfl

theorem heartbeat_same (m : Monitor) (s : Surroundings) :
    (m.heartbeat s).feed = m.feed ∧
      ∀ place, (m.heartbeat s).engine.network.upState? place = m.engine.network.upState? place := by
  have hbeat := upState?_heartbeat m.engine.network m.engine.wiring m.engine.config.window s.now
  unfold Monitor.heartbeat
  dsimp only
  split
  · exact ⟨rfl, hbeat⟩
  · split
    · exact ⟨rfl, hbeat⟩
    · exact ⟨rfl, hbeat⟩

/-- The wire and the regular work change nothing of what is followed. -/
theorem Sound.same {p : Pursuit} {m : Monitor} (hp : p.Sound) (hconfig : m.feed.config = p.monitor.feed.config)
    (hheld : m.feed.held = p.monitor.feed.held) (hprevious : m.feed.previous = p.monitor.feed.previous)
    (hqueue : m.feed.queue = p.monitor.feed.queue) (hfloor : m.feed.floor = p.monitor.feed.floor)
    (hup : ∀ place, m.engine.network.upState? place = p.monitor.engine.network.upState? place) :
    Sound { p with monitor := m } := by
  obtain ⟨rs, es, habreast⟩ := hp.abreast
  exact ⟨hp.horizon, rs, es, habreast.same hconfig hheld hprevious hqueue hfloor hup⟩

theorem Sound.meet {p q : Pursuit} (hp : p.Sound) {o : Occasion} (h : p.meet o = some q) : q.Sound := by
  cases o with
  | arrive bytes =>
    cases h
    exact hp.same rfl rfl rfl rfl rfl fun _ => rfl
  | hangUp =>
    cases h
    obtain ⟨w, hw⟩ := hangUp_eq p.monitor.feed
    have hfeed : p.monitor.hangUp.feed = { p.monitor.feed with wire := w } := hw
    refine hp.same ?_ ?_ ?_ ?_ ?_ fun _ => rfl <;> rw [hfeed]
    rfl
  | beat s =>
    cases h
    obtain ⟨hfeed, hup⟩ := heartbeat_same p.monitor s
    refine hp.same ?_ ?_ ?_ ?_ ?_ hup <;> rw [hfeed]
  | ask s ms => exact hp.ask h

theorem Sound.run {p q : Pursuit} {occasions : List Occasion} (hp : p.Sound) (h : p.run occasions = some q) :
    q.Sound := by
  induction occasions generalizing p with
  | nil =>
    cases h
    exact hp
  | cons o r ih =>
    obtain ⟨p', hmeet, hrun⟩ := Option.bind_eq_some_iff.mp h
    exact ih (hp.meet hmeet) hrun

theorem connect_ok {f f' : Feed} {site : Site} (h : f.connect site = (f', .ok ())) :
    ∃ ms, f' = (f.sleep ms).attach := by
  unfold Feed.connect at h
  dsimp only at h
  split at h
  · cases h
  next k _ =>
    split at h
    · cases h
      exact ⟨_, rfl⟩
    · cases h

theorem sound_connect {config : MonitorConfig} {g : Engine} {s : Surroundings} {site : Site} {m : Monitor}
    (undelayed : config.feed.debounce = 0) (h : (Monitor.start config g).connect s site = (m, none)) :
    (begin m).Sound := by
  unfold Monitor.connect at h
  split at h
  next => cases h
  next feed hconnect =>
    obtain ⟨ms, rfl⟩ := connect_ok hconnect
    split at h
    next => cases h
    next n horizon hrestore =>
      cases h
      have hsleep := advance_of_held_nil (f := Feed.fresh config.feed) rfl ((Feed.fresh config.feed).now + ms)
      have hconfig : (((Monitor.start config g).feed.sleep ms).attach).config = config.feed :=
        congrArg Feed.config hsleep
      exact restore_begin ⟨by rw [hconfig]; exact undelayed, rfl⟩ rfl hrestore

/-- Take a monitor that does not debounce, connected and restored, and let it meet whatever there is:
bytes in any pieces, the end of the wire, heartbeats, questions for an event, with a restore from a
valid snapshot at each gap. What it has read since the last restore are the records `h + 1`, …,
`h + n`, some without a number and some that the horizon covers. Let them be worked off, and let ids
and names of switches determine each other in them. Then a port is as it was restored if every
report of it says what the feed had delivered of it before the restore, and else as reported last.
So it is as reported last whenever what had been delivered of it is what was restored. -/
theorem run_upState? (config : MonitorConfig) (g : Engine) (s : Surroundings) (site : Site)
    (occasions : List Occasion) {m : Monitor} {p : Pursuit} (undelayed : config.feed.debounce = 0)
    (connected : (Monitor.start config g).connect s site = (m, none))
    (followed : (begin m).run occasions = some p) (workedOff : p.monitor.feed.queue = [])
    (named : Named (records p.lines)) :
    ∃ h n, p.base.feed.horizon = some h ∧
      (inSequence (some h) (records p.lines)).filterMap (·.id.map UInt64.toNat) =
        List.range' (h.toNat + 1) n ∧
      (∀ e ∈ records p.lines, ∀ i, e.id = some i → i.toNat ≤ h.toNat + n) ∧
      ∀ place, p.monitor.engine.network.upState? place =
          stateAfter p.base.feed.previous (p.base.engine.network.upState? place) (p.news place) ∧
        ((∀ x ∈ p.news place, ∀ up, p.base.feed.previous.get? x.1 = some up →
            p.base.engine.network.upState? place = some up) →
          p.monitor.engine.network.upState? place =
            ((p.news place).getLast?.map (·.2)).or (p.base.engine.network.upState? place)) := by
  have hsound := (sound_connect undelayed connected).run followed
  obtain ⟨h, hh⟩ := hsound.horizon
  obtain ⟨rs, es, habreast⟩ := hsound.abreast
  have hruled : Ruled (some h) (records p.lines) rs := hh ▸ habreast.ruled
  have hadmitted := hruled.event?_eq habreast.gapless
  have hworked := habreast.worked
  rw [workedOff, List.append_nil, hadmitted] at hworked
  have hcapacity : p.base.feed.config.capacity = p.monitor.feed.config.capacity := by
    rw [habreast.follows.config]
  have hstate (place : Endpoint) : p.monitor.engine.network.upState? place =
      stateAfter p.base.feed.previous (p.base.engine.network.upState? place) (p.news place) := by
    have hnamed : Named es := by
      intro x hx y hy
      rw [← hworked] at hx hy
      obtain ⟨e, he, hxe⟩ := List.mem_flatMap.mp hx
      obtain ⟨e', he', hye⟩ := List.mem_flatMap.mp hy
      obtain ⟨_, hxid, hxname⟩ := mem_pieces hxe
      obtain ⟨_, hyid, hyname⟩ := mem_pieces hye
      rw [hxid, hyid, hxname, hyname]
      exact named e (inSequence_subset _ _ he) e' (inSequence_subset _ _ he')
    rw [habreast.follows.up hnamed place, ← hworked, List.flatMap_assoc]
    simp only [portNews_pieces]
    rw [news, hh, hcapacity]
  obtain ⟨k, n, hnumbers, hk⟩ := hruled.consecutive habreast.gapless
  refine ⟨h, n, hh, ?_, ?_, fun place => ⟨hstate place, fun hagree => ?_⟩⟩
  · rw [← hadmitted, List.filterMap_filterMap, ← hk h rfl, ← hnumbers, Ruling.number?_eq]
  · have hlength : (rs.filterMap Ruling.number?).length = n := by rw [hnumbers, List.length_range']
    rw [← hlength]
    exact hruled.number_le habreast.gapless
  · rw [hstate, stateAfter_of_agree hagree]

theorem await_zero {p : Pursuit} (hp : p.Sound) : p.monitor.feed.await 0 = p.monitor.feed.poll := by
  obtain ⟨rs, es, habreast⟩ := hp.abreast
  rw [habreast.await_eq 0]
  split
  next f' heq => simp [heq]
  next => rfl

/-- To follow the feed until it has nothing more is to ask it time and again without waiting. -/
theorem follow_asks (s : Surroundings) {p : Pursuit} (hp : p.Sound) :
    ∃ k, match p.run (List.replicate k (.ask s 0)) with
      | some q => q.monitor = (p.monitor.follow s).1
      | none => ∃ x, (p.monitor.follow s).2 = some x := by
  generalize hm : p.monitor = m
  fun_induction Monitor.follow s m generalizing p with
  | case1 m feed e hpoll ih =>
    subst hm
    have hask : p.ask s 0 = some (p.goOn (Monitor.dispatch { p.monitor with feed := feed } e)) := by
      unfold Pursuit.ask
      rw [await_zero hp, hpoll]
    obtain ⟨k, hk⟩ := ih (hp.ask hask) rfl
    refine ⟨k + 1, ?_⟩
    rw [List.replicate_succ, run, meet, hask]
    exact hk
  | case2 m feed a b hpoll n horizon hrestore ih =>
    subst hm
    have hask : p.ask s 0 = some (begin (n.setHorizon horizon)) := by
      unfold Pursuit.ask
      rw [await_zero hp, hpoll]
      simp only [hrestore]
    obtain ⟨k, hk⟩ := ih (hp.ask hask) rfl
    refine ⟨k + 1, ?_⟩
    rw [List.replicate_succ, run, meet, hask]
    exact hk
  | case3 m feed a b hpoll n x hrestore =>
    subst hm
    refine ⟨1, ?_⟩
    have hask : p.ask s 0 = none := by
      unfold Pursuit.ask
      rw [await_zero hp, hpoll]
      simp only [hrestore]
    rw [List.replicate_one, run, meet, hask]
    exact ⟨x, rfl⟩
  | case4 m feed x hgap hpoll =>
    subst hm
    refine ⟨1, ?_⟩
    have hask : p.ask s 0 = some (p.goOn { p.monitor with feed := feed }) := by
      unfold Pursuit.ask
      rw [await_zero hp, hpoll]
      cases x with
      | gap a b => exact absurd rfl (hgap a b)
      | _ => rfl
    rw [List.replicate_one, run, meet, hask]
    rfl
  | case5 m feed hpoll =>
    subst hm
    refine ⟨1, ?_⟩
    have hask : p.ask s 0 = some (p.goOn { p.monitor with feed := feed }) := by
      unfold Pursuit.ask
      rw [await_zero hp, hpoll]
    rw [List.replicate_one, run, meet, hask]
    rfl

section Small

/-- Port 3 is up, and the last event was number 42. -/
def smallMetrics : String :=
  "dp_status 1\nport_status\x7bdp_name=\"sw1\",port=\"3\"\x7d 1\nport_stack_state 3\nport_lacp_state 3\n" ++
    "port_lacp_role 1\nlearned_l2_port 1\nfaucet_config_reload_cold 1\nfaucet_config_reload_warm 0\n" ++
    "dp_root_hop_port 0\nfaucet_stack_root_dpid 1\nvlan_packet_count 1\nfaucet_event_id 42\n"

def smallConfig : MonitorConfig :=
  { feed := { FeedConfig.usual "events.sock" with debounce := 0 }
    metricsUrl := ⟨"http", "", "", none, none, .bare "", none, none⟩
    scrapeRetries := 3
    scrapePause := 1000
    heartbeat := 5000
    engine := .usual }

def smallSurroundings : Surroundings := ⟨fun _ => .response 200 smallMetrics, 5⟩

def smallStart : Monitor × Option Fault :=
  (Monitor.start smallConfig (.fresh .usual)).connect smallSurroundings (.listening 0)

/-- Port 3 goes down, a gap, and after the restore the port goes down for once and all. -/
def smallOccasions : List Occasion :=
  [ .arrive (framed
      [ smallRecord "\"event_id\":43,\"PORT_CHANGE\":\x7b\"port_no\":3,\"status\":false\x7d",
        smallRecord "\"event_id\":45",
        smallRecord "\"event_id\":43,\"PORT_CHANGE\":\x7b\"port_no\":3,\"status\":false\x7d",
        smallRecord "\"event_id\":44,\"PORT_CHANGE\":\x7b\"port_no\":4,\"status\":true\x7d" ]),
    .ask smallSurroundings 0,
    .ask smallSurroundings 0,
    .ask smallSurroundings 0 ]

instance (es : List Event) : Decidable (Named es) := inferInstanceAs (Decidable (∀ e ∈ es, ∀ e' ∈ es, _))

set_option maxRecDepth 10000 in
/-- After the restore port 3 is up, and stays so although it is reported down. -/
theorem small_run : smallStart.2.isNone = true ∧ ∃ p ∈ (begin smallStart.1).run smallOccasions,
    p.monitor.feed.queue.isEmpty = true ∧ Named (records p.lines) ∧
      p.monitor.engine.network.upState? ⟨"sw1", 3⟩ = some true ∧ (p.news ⟨"sw1", 3⟩).map (·.2) = [false] := by
  decide +kernel

theorem smallStart_eq : smallStart = (smallStart.1, none) :=
  (Prod.eta smallStart).symm.trans (congrArg (Prod.mk smallStart.1) (Option.isNone_iff_eq_none.mp small_run.1))

theorem run_upState?_small :
    smallConfig.feed.debounce = 0 ∧ smallStart.2 = none ∧
      ∃ p, (begin smallStart.1).run smallOccasions = some p ∧ p.monitor.feed.queue = [] ∧
        Named (records p.lines) ∧
        ∃ h n, p.base.feed.horizon = some h ∧
          (inSequence (some h) (records p.lines)).filterMap (·.id.map UInt64.toNat) =
            List.range' (h.toNat + 1) n ∧
          (∀ e ∈ records p.lines, ∀ i, e.id = some i → i.toNat ≤ h.toNat + n) ∧
          ∀ place, p.monitor.engine.network.upState? place =
              stateAfter p.base.feed.previous (p.base.engine.network.upState? place) (p.news place) ∧
            ((∀ x ∈ p.news place, ∀ up, p.base.feed.previous.get? x.1 = some up →
                p.base.engine.network.upState? place = some up) →
              p.monitor.engine.network.upState? place =
                ((p.news place).getLast?.map (·.2)).or (p.base.engine.network.upState? place)) := by
  obtain ⟨_, p, hrun, hqueue, hnamed, _⟩ := small_run
  have workedOff := List.isEmpty_iff.mp hqueue
  exact ⟨rfl, congrArg Prod.snd smallStart_eq, p, hrun, workedOff, hnamed,
    run_upState? smallConfig (.fresh .usual) smallSurroundings (.listening 0) smallOccasions rfl smallStart_eq
      hrun workedOff hnamed⟩

/-- The port need not be as it was reported last: what the feed delivered before the restore hides
that it went down again. -/
theorem news_missed :
    ¬ ∀ (config : MonitorConfig) (g : Engine) (s : Surroundings) (site : Site) (occasions : List Occasion)
      (m : Monitor) (p : Pursuit), config.feed.debounce = 0 →
      (Monitor.start config g).connect s site = (m, none) → (begin m).run occasions = some p →
      p.monitor.feed.queue = [] → Named (records p.lines) → ∀ place,
      p.monitor.engine.network.upState? place =
        ((p.news place).getLast?.map (·.2)).or (p.base.engine.network.upState? place) := by
  intro hall
  obtain ⟨_, p, hrun, hqueue, hnamed, hup, hnews⟩ := small_run
  have hclaim := hall smallConfig (.fresh .usual) smallSurroundings (.listening 0) smallOccasions
    smallStart.1 p rfl smallStart_eq hrun (List.isEmpty_iff.mp hqueue) hnamed ⟨"sw1", 3⟩
  rw [hup, ← List.getLast?_map, hnews] at hclaim
  simp at hclaim

end Small
end Pursuit
end Fabric
