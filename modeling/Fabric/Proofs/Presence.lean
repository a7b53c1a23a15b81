import Fabric.Proofs.Clearing

/-! What is attached to a host, and for how long. A host is present while some switch sees it, and what it
has of addresses, of a VLAN and of an authorization is what was said of it since it came to be present,
never before. What an engine goes through is told one episode at a time, the single updates of events and of
restores included, and a restore that starts over begins with an episode in which nobody is present. Each
episode does to what a host has what is said of the host in it (`Becomes`); all else follows from that by
going through the life of an engine (`Chained`). -/

namespace Fabric

open Network

/-! ## Words and episodes -/

/-- Something that is said of a host beside its place. -/
inductive Word where
  | learned (t : Traits)
  | authorized (a : Authorization)
deriving DecidableEq

namespace Word

def vid? : Word → Option UInt16
  | learned t => t.vid
  | authorized _ => none

def authorization? : Word → Option Authorization
  | learned _ => none
  | authorized a => some a

end Word

/-- The VLAN that was given last. -/
def lastVid (words : List Word) : Option UInt16 := (words.filterMap Word.vid?).getLast?

def lastAuthorization (words : List Word) : Option Authorization :=
  (words.filterMap Word.authorization?).getLast?

/-- A single step: of which host something is said, the network after it, and what is told. -/
structure Episode where
  said : Option (Mac × Word)
  outcome : Outcome

def Update.said? : Update → Option (Mac × Word)
  | .learn _ mac t => some (mac, .learned t)
  | _ => none

def Notice.reassigned? : Notice → Option (Mac × UInt16)
  | .reassigned mac vid => some (mac, vid)
  | _ => none

namespace Episode

def network (x : Episode) : Network := x.outcome.network

def notices (x : Episode) : List Notice := x.outcome.notices

/-- What is said of this host. -/
def words (x : Episode) (mac : Mac) : List Word :=
  (x.said.filter (·.1 = mac)).toList.map (·.2)

/-- The hosts that are said to have another VLAN. -/
def reassigned (x : Episode) : List (Mac × UInt16) := x.notices.filterMap Notice.reassigned?

end Episode

/-- Some switch sees the host. -/
def Network.isPresent (n : Network) (mac : Mac) : Bool := (n.hosts.get? mac).any (!·.sightings.isEmpty)

/-- One update after the other. -/
def Network.episodes (config : EngineConfig) (w : Wiring) (now : Instant) : List Update → Network → List Episode
  | [], _ => []
  | u :: r, n => ⟨u.said?, u.apply config w now n⟩ :: episodes config w now r (u.apply config w now n).network

namespace Engine

/-- What an engine goes through in an operation. A restore that has every family starts with nothing and
takes the reports of the snapshot one by one. -/
def episodes (g : Engine) : Operation → List Episode
  | .update now u => Network.episodes g.config g.wiring now [u] g.network
  | .dispatch e => Network.episodes g.config g.wiring (.ofSeconds e.time) e.updates g.network
  | .authorize mac a =>
    match g.network.authorize mac a with
    | .ok n => [⟨some (mac, .authorized a), .quiet n⟩]
    | .error _ => []
  | .restore now s =>
    if (Family.metrics g.config.vlanMetric).all s.contains then
      let reports := s.sampleUpdates g.config.vlanMetric ++ s.lagUpdates g.config.vlanMetric
      ⟨none, .quiet .empty⟩ :: Network.episodes g.config g.wiring now reports .empty ++
        [⟨none, .quiet (g.restore now s).1.network⟩]
    else []
  | op => [⟨none, .quiet (g.perform op).1.network⟩]

def life (g : Engine) : List Operation → List Episode
  | [] => []
  | op :: r => g.episodes op ++ (g.perform op).1.life r

end Engine

/-- The network that a life leads to. -/
def networkAfter (n : Network) (life : List Episode) : Network := life.foldl (fun _ x => x.network) n

/-- What was said of the host since it came to be present, if this much was `said` when the life began. -/
def presence (mac : Mac) (said : List Word) (life : List Episode) : List Word :=
  life.foldl (fun said x => if x.network.isPresent mac then said ++ x.words mac else []) said

/-- What a host has is what `words` say. -/
structure Attached (h : Host) (words : List Word) : Prop where
  authorization : h.authorization = lastAuthorization words
  vid : h.vid = lastVid words
  ips : ∀ ip, h.ips.contains ip = true ↔ ∃ t, .learned t ∈ words ∧ t.ip = some ip ∧ ip ≠ ""

/-! ## One host in one episode -/

/-- What becomes of a host, but for where it is, when `words` are said of it. -/
inductive Becomes : Option Host → List Word → Option Host → Prop where
  | gone (b : Option Host) (words : List Word) : Becomes b words none
  | kept {h h' : Host} : h'.ips = h.ips → h'.vid = h.vid → h'.authorization = h.authorization →
      Becomes (some h) [] (some h')
  | learned (b : Option Host) (now : Instant) (e : Endpoint) (t : Traits) :
      Becomes b [.learned t] (some (seen (b.getD .fresh) now e t))
  | authorized (h : Host) (a : Authorization) :
      Becomes (some h) [.authorized a] (some { h with authorization := some a })

namespace Becomes

theorem same (b : Option Host) : Becomes b [] b := by
  cases b with
  | none => exact .gone _ _
  | some h => exact .kept rfl rfl rfl

theorem trans {a b c : Option Host} (h : Becomes a [] b) (h' : Becomes b [] c) : Becomes a [] c := by
  cases h' with
  | gone => exact .gone _ _
  | kept hips hvid hauth =>
    cases h with
    | kept hips' hvid' hauth' => exact .kept (hips.trans hips') (hvid.trans hvid') (hauth.trans hauth')

theorem lost (b : Option Host) (switch : String) : Becomes b [] (b.bind (·.lostOn? switch)) := by
  cases b with
  | none => exact .gone _ _
  | some h =>
    simp only [Option.bind_some, Host.lostOn?]
    split
    · exact .gone _ _
    · exact .kept rfl rfl rfl

end Becomes

theorem lastVid_append (words : List Word) (word : Word) :
    lastVid (words ++ [word]) = word.vid?.or (lastVid words) := by
  unfold lastVid
  rw [List.filterMap_append]
  cases hword : word.vid? <;> simp [hword]

theorem lastAuthorization_append (words : List Word) (word : Word) :
    lastAuthorization (words ++ [word]) = word.authorization?.or (lastAuthorization words) := by
  unfold lastAuthorization
  rw [List.filterMap_append]
  cases hword : word.authorization? <;> simp [hword]

/-- An address without characters is none. -/
theorem contains_seen (h : Host) (now : Instant) (e : Endpoint) (t : Traits) (ip : String) :
    (seen h now e t).ips.contains ip = true ↔ h.ips.contains ip = true ∨ (t.ip = some ip ∧ ip ≠ "") := by
  cases hip : t.ip.filter (· ≠ "") with
  | none =>
    have hno : ¬ (t.ip = some ip ∧ ip ≠ "") := fun ⟨hsome, hne⟩ =>
      Option.filter_eq_none_iff.mp hip ip hsome (decide_eq_true hne)
    simp only [seen, hip, hno, or_false]
  | some x =>
    obtain ⟨hx, hne⟩ := Option.filter_eq_some_iff.mp hip
    have hsame : (t.ip = some ip ∧ ip ≠ "") ↔ ip = x := by
      rw [hx, Option.some.injEq]
      exact ⟨fun h => h.1.symm, fun h => ⟨h.symm, h ▸ of_decide_eq_true hne⟩⟩
    simp only [seen, hip, hsame, KeySet.contains_add, Bool.or_eq_true, decide_eq_true_eq, or_comm]

namespace Attached

variable {h h' : Host} {words : List Word}

theorem fresh : Attached .fresh [] where
  authorization := rfl
  vid := rfl
  ips ip := by simp [Host.fresh, Table.contains]

theorem learned (hwords : Attached h words) (now : Instant) (e : Endpoint) (t : Traits) :
    Attached (seen h now e t) (words ++ [.learned t]) where
  authorization := by
    rw [lastAuthorization_append]
    exact hwords.authorization
  vid := by
    rw [lastVid_append, ← hwords.vid]
    rfl
  ips ip := by
    have hmem : (∃ t', .learned t' ∈ words ++ [.learned t] ∧ t'.ip = some ip ∧ ip ≠ "") ↔
        (∃ t', .learned t' ∈ words ∧ t'.ip = some ip ∧ ip ≠ "") ∨ (t.ip = some ip ∧ ip ≠ "") := by
      simp only [List.mem_append, List.mem_singleton, Word.learned.injEq, or_and_right, exists_or,
        exists_eq_left]
    rw [contains_seen, hwords.ips, hmem]

theorem authorized (hwords : Attached h words) (a : Authorization) :
    Attached { h with authorization := some a } (words ++ [.authorized a]) where
  authorization := by
    rw [lastAuthorization_append]
    rfl
  vid := by
    rw [lastVid_append]
    exact hwords.vid
  ips ip := by simpa using hwords.ips ip

/-- A host that nothing was known of comes to be as if it had been there without a word said of it. -/
theorem becomes {b : Option Host} {said : List Word} (hb : Becomes b said (some h'))
    (hbefore : ∀ h, b = some h → Attached h words) (hnew : b = none → words = []) :
    Attached h' (words ++ said) := by
  cases hb with
  | kept hips hvid hauth =>
    have hwords := hbefore _ rfl
    rw [List.append_nil]
    exact ⟨hauth.trans hwords.authorization, hvid.trans hwords.vid, fun ip => hips ▸ hwords.ips ip⟩
  | @learned _ now e t =>
    refine Attached.learned ?_ now e t
    cases b with
    | none =>
      rw [hnew rfl]
      exact .fresh
    | some h => exact hbefore h rfl
  | authorized h a => exact (hbefore h rfl).authorized a

end Attached

/-! ## One update -/

namespace Network

variable {n m : Network} {w : Wiring} {now : Instant}

/-- Hosts are lost, or not, and nothing is said of any. -/
def Fades (n m : Network) : Prop := ∀ mac, Becomes (n.hosts.get? mac) [] (m.hosts.get? mac)

theorem fades_of_eq (h : m.hosts = n.hosts) : Fades n m := fun mac => by
  rw [h]
  exact .same _

theorem Fades.trans {k : Network} (h : Fades n m) (h' : Fades m k) : Fades n k := fun mac => (h mac).trans (h' mac)

theorem fades_forget (mac : Mac) (switch : String) (n : Network) : Fades n (forget w mac switch n).network := by
  intro m
  cases hx : n.sighting? mac switch with
  | none =>
    rw [forget_none hx]
    exact .same _
  | some x =>
    rw [forget_some hx]
    show Becomes _ [] ((withoutSighting n.hosts mac switch).get? m)
    rw [get?_withoutSighting]
    split
    · exact .lost _ switch
    · exact .same _

theorem fades_forgetAll (macs : List Mac) (switch : String) (n : Network) :
    Fades n (forgetAll w macs switch n).network :=
  Outcome.forEach_keeps (P := Fades n) (fun mac _ m hm => hm.trans (fades_forget mac switch m)) (fades_of_eq rfl)

theorem fades_clearPort (e : Endpoint) (n : Network) : Fades n (clearPort w e n).network := by
  rw [clearPort_network]
  exact fades_forgetAll _ e.switch n

theorem fades_portState (e : Endpoint) (up : Bool) (n : Network) : Fades n (portState w now e up n).network := by
  by_cases hs : (n.port? e).any (·.up = some up) = true
  · rw [portState_same hs]
    exact fades_of_eq rfl
  · have hnoted : Fades n (n.updatePort e (notePort · now up)) := fades_of_eq rfl
    rw [portState_news hs, Outcome.andThen_network]
    dsimp only
    split
    · exact hnoted.trans (fades_clearPort e _)
    · exact hnoted

theorem fades_expire (e : Endpoint) (mac : Mac) (n : Network) : Fades n (expire w e mac n).network := by
  unfold expire
  split
  · exact fades_forget mac e.switch n
  · exact fades_of_eq rfl

theorem fades_refreshLinks (w : Wiring) (now : Instant) (n : Network) : Fades n (n.refreshLinks w now) :=
  fades_of_eq (by rw [refreshLinks_eq])

theorem fades_stackState (e : Endpoint) (code : Int) (n : Network) : Fades n (stackState w now e code n) := by
  rcases stackState_cases w now e code n with heq | ⟨s, heq⟩ <;> rw [heq]
  · exact fades_of_eq rfl
  · have hnoted : Fades n (n.updatePort e (noteStack · s)) := fades_of_eq rfl
    exact hnoted.trans (fades_refreshLinks w now _)

theorem fades_heartbeat (w : Wiring) (window : Nat) (now : Instant) (n : Network) :
    Fades n (n.heartbeat w window now).1 := by
  rcases heartbeat_cases n w window now with heq | heq | ⟨status, heq⟩ <;> rw [heq]
  · exact fades_of_eq rfl
  · exact fades_of_eq rfl
  · have hstatus : Fades n { n with topology := status } := fades_of_eq rfl
    exact hstatus.trans (fades_refreshLinks w now _)

/-- Those who are not displaced are left alone. -/
theorem hosts_forgetAll_of_notMem {macs : List Mac} {mac : Mac} (h : mac ∉ macs) (switch : String) (n : Network) :
    (forgetAll w macs switch n).network.hosts.get? mac = n.hosts.get? mac := by
  refine Outcome.forEach_keeps (P := fun m => m.hosts.get? mac = n.hosts.get? mac)
    (fun other hother m hm => ?_) rfl
  rw [← hm]
  cases hx : m.sighting? other switch with
  | none => rw [forget_none hx]; rfl
  | some x =>
    have hne : mac ≠ other := fun heq => h (heq ▸ hother)
    rw [forget_some hx]
    show (withoutSighting m.hosts other switch).get? mac = _
    rw [get?_withoutSighting, if_neg hne]

theorem becomes_learn (e : Endpoint) (mac m : Mac) (t : Traits) (n : Network) :
    Becomes (n.hosts.get? m) (if mac = m then [.learned t] else [])
      ((learn w now e mac t n).network.hosts.get? m) := by
  have hself := hosts_forgetAll_of_notMem (w := w) (not_displaced_self n w e mac) e.switch n
  have hothers := fades_forgetAll (w := w) (n.displaced w e mac) e.switch n m
  rw [learn_network]
  show Becomes _ _ ((Table.insert _ mac (seen _ now e t)).get? m)
  rw [Table.get?_insert, hself]
  by_cases hm : m = mac
  · subst hm
    rw [if_pos rfl, if_pos rfl]
    exact .learned _ now e t
  · rw [if_neg hm, if_neg (Ne.symm hm)]
    exact hothers

theorem becomes_update (config : EngineConfig) (u : Update) (n : Network) (mac : Mac) :
    Becomes (n.hosts.get? mac) (Episode.words ⟨u.said?, u.apply config w now n⟩ mac)
      ((u.apply config w now n).network.hosts.get? mac) := by
  cases u with
  | learn e other t =>
    have hwords : Episode.words ⟨some (other, .learned t), learn w now e other t n⟩ mac =
        if other = mac then [.learned t] else [] := by
      by_cases hm : other = mac <;> simp [Episode.words, Option.filter, hm]
    have hlearn : Becomes (n.hosts.get? mac) _ ((learn w now e other t n).network.hosts.get? mac) :=
      becomes_learn e other mac t n
    rw [← hwords] at hlearn
    exact hlearn
  | portState e up => exact fades_portState e up n mac
  | expire e other => exact fades_expire e other n mac
  | stackState e code => exact fades_stackState e code n mac
  | lag | stage | connection | reload | vlanSamples => exact .same _

/-! ## Who is told -/

theorem reassigned_forgetAll (macs : List Mac) (switch : String) (n : Network) :
    (forgetAll w macs switch n).notices.filterMap Notice.reassigned? = [] := by
  induction macs generalizing n with
  | nil => rfl
  | cons mac r ih =>
    have hfirst : (forget w mac switch n).notices.filterMap Notice.reassigned? = [] := by
      unfold forget
      split
      · rfl
      · dsimp only
        split <;> rfl
    rw [forgetAll, Outcome.forEach_cons]
    show ((forget w mac switch n).notices ++ (forgetAll w r switch _).notices).filterMap _ = []
    rw [List.filterMap_append, hfirst, ih]
    rfl

theorem reassigned_learn (e : Endpoint) (mac : Mac) (t : Traits) (n : Network) :
    (learn w now e mac t n).notices.filterMap Notice.reassigned? =
      ((reassignment ((n.hosts.get? mac).getD .fresh) t).map (mac, ·)).toList := by
  have hself := hosts_forgetAll_of_notMem (w := w) (not_displaced_self n w e mac) e.switch n
  show (_ ++ (record w now e mac t (forgetAll w (n.displaced w e mac) e.switch n).network).notices).filterMap _ = _
  rw [List.filterMap_append, reassigned_forgetAll, List.nil_append, record, hself]
  dsimp only
  rw [List.filterMap_append]
  cases reassignment ((n.hosts.get? mac).getD .fresh) t <;> cases isAccess w e <;> rfl

theorem reassigned_clearPort (e : Endpoint) (n : Network) :
    (clearPort w e n).notices.filterMap Notice.reassigned? = [] := by
  unfold clearPort
  split
  · rfl
  · exact reassigned_forgetAll _ _ _

theorem reassigned_portState (e : Endpoint) (up : Bool) (n : Network) :
    (portState w now e up n).notices.filterMap Notice.reassigned? = [] := by
  by_cases hs : (n.port? e).any (·.up = some up) = true
  · rw [portState_same hs]
    rfl
  · rw [portState_news hs, Outcome.andThen]
    dsimp only
    rw [List.filterMap_append]
    split
    · rw [reassigned_clearPort]
      rfl
    · rfl

theorem reassigned_update (config : EngineConfig) {u : Update} (hu : u.isLearn = false) (n : Network) :
    (u.apply config w now n).notices.filterMap Notice.reassigned? = [] := by
  cases u with
  | learn => cases hu
  | portState e up => exact reassigned_portState e up n
  | expire e mac =>
    show (expire w e mac n).notices.filterMap _ = []
    unfold expire
    split
    · have hforget := reassigned_forgetAll (w := w) [mac] e.switch n
      rwa [forgetAll, Outcome.forEach_singleton] at hforget
    · rfl
  | stackState | lag | stage | connection | reload | vlanSamples => rfl

end Network

/-! ## Lives -/

/-- An episode that can follow when this is the network. -/
structure Episode.Follows (n : Network) (x : Episode) : Prop where
  filed : x.network.Filed
  becomes : ∀ mac, Becomes (n.hosts.get? mac) (x.words mac) (x.network.hosts.get? mac)
  learned : ∀ mac t, x.said = some (mac, .learned t) →
    x.reassigned = ((reassignment ((n.hosts.get? mac).getD .fresh) t).map (mac, ·)).toList
  unlearned : (∀ mac t, x.said ≠ some (mac, .learned t)) → x.reassigned = []

/-- Every episode follows on the one before it. -/
def Chained : Network → List Episode → Prop
  | _, [] => True
  | n, x :: r => x.Follows n ∧ Chained x.network r

theorem chained_append {n : Network} {l r : List Episode} :
    Chained n (l ++ r) ↔ Chained n l ∧ Chained (networkAfter n l) r := by
  induction l generalizing n with
  | nil => simp [Chained, networkAfter]
  | cons x l ih => rw [List.cons_append, Chained, ih, Chained, and_assoc]; rfl

theorem networkAfter_append (n : Network) (l r : List Episode) :
    networkAfter n (l ++ r) = networkAfter (networkAfter n l) r := List.foldl_append

namespace Network

variable {n : Network} {w : Wiring} {now : Instant}

/-- An episode in which nothing is said and nobody is told. -/
theorem follows_quiet {m : Network} (hfiled : m.Filed) (hfades : Fades n m) :
    Episode.Follows n ⟨none, .quiet m⟩ where
  filed := hfiled
  becomes := hfades
  learned _ _ hsaid := by cases hsaid
  unlearned _ := rfl

theorem Filed.isPresent (h : n.Filed) (mac : Mac) : n.isPresent mac = (n.hosts.get? mac).isSome := by
  unfold Network.isPresent
  cases hx : n.hosts.get? mac with
  | none => rfl
  | some x => simp [h.sighted mac x hx]

theorem isPresent_iff (n : Network) (mac : Mac) : n.isPresent mac = true ↔ ∃ s x, n.sighting? mac s = some x := by
  unfold Network.isPresent sighting?
  cases n.hosts.get? mac with
  | none => simp
  | some h =>
    simp only [Option.any_some, Bool.not_eq_true', ← Bool.not_eq_true, Table.isEmpty_iff, Option.bind_some]
    simp [Option.ne_none_iff_exists']

theorem chained_episodes (h : n.Filed) (config : EngineConfig) (w : Wiring) (now : Instant) (us : List Update) :
    Chained n (n.episodes config w now us) := by
  induction us generalizing n with
  | nil => trivial
  | cons u r ih =>
    have hfiled : (u.apply config w now n).network.Filed := h.update config u
    refine ⟨⟨hfiled, becomes_update config u n, fun mac t hsaid => ?_, fun hsaid => ?_⟩, ih hfiled⟩
    · cases u with
      | learn e other t' =>
        cases hsaid
        exact reassigned_learn e mac t n
      | _ => cases hsaid
    · refine reassigned_update config ?_ n
      cases u with
      | learn e other t => exact absurd rfl (hsaid other t)
      | _ => rfl

theorem networkAfter_episodes (config : EngineConfig) (w : Wiring) (now : Instant) (us : List Update) (n : Network) :
    networkAfter n (n.episodes config w now us) =
      (Outcome.forEach us (Update.apply config w now) n).network := by
  induction us generalizing n with
  | nil => rfl
  | cons u r ih =>
    rw [Outcome.forEach_cons, Outcome.andThen_network, ← ih]
    rfl

theorem notices_episodes (config : EngineConfig) (w : Wiring) (now : Instant) (us : List Update) (n : Network) :
    (n.episodes config w now us).flatMap Episode.notices =
      (Outcome.forEach us (Update.apply config w now) n).notices := by
  induction us generalizing n with
  | nil => rfl
  | cons u r ih =>
    rw [Outcome.forEach_cons, Network.episodes, List.flatMap_cons, ih]
    rfl

end Network

namespace Engine

theorem fades_finish (config : EngineConfig) (w : Wiring) (now : Instant) (s : Snapshot) (n : Network) :
    Fades n (finish config w now s n) := by
  show Fades n (n.applyTopology w now (s.topology config.vlanMetric w n)).1
  by_cases h : n.topology.hash? = some (s.topology config.vlanMetric w n).hash
  · rw [applyTopology_same h]
    exact fades_of_eq rfl
  · rw [applyTopology_new h]
    refine Fades.trans ?_ (fades_refreshLinks w now _)
    exact fades_of_eq rfl

/-- A restore that starts over. -/
theorem restore_over {g : Engine} (now : Instant) {s : Snapshot}
    (h : (Family.metrics g.config.vlanMetric).all s.contains = true) :
    (g.restore now s).1.network =
        finish g.config g.wiring now s (reported g.config g.wiring now s).network ∧
      (g.restore now s).2.1 = (reported g.config g.wiring now s).notices := by
  have houtcome := restore_outcome g.config g.wiring now (List.all_eq_true.mp h) g.network
  constructor
  · show (g.network.restore g.config g.wiring now s).1.network = _
    rw [houtcome, Outcome.map_network]
  · show (g.network.restore g.config g.wiring now s).1.notices = _
    rw [houtcome, Outcome.map_notices]

theorem restore_kept {g : Engine} (now : Instant) {s : Snapshot}
    (h : ¬ (Family.metrics g.config.vlanMetric).all s.contains = true) :
    (g.restore now s).1.network = g.network ∧ (g.restore now s).2.1 = [] := by
  have houtcome := restore_missing g.config g.wiring now (mt List.all_eq_true.mpr h) g.network
  constructor
  · show (g.network.restore g.config g.wiring now s).1.network = _
    rw [houtcome, Outcome.quiet_network]
  · show (g.network.restore g.config g.wiring now s).1.notices = _
    rw [houtcome, Outcome.quiet_notices]

/-- An assertion is of one host, and it is all that is said of it. -/
theorem follows_authorize {n n' : Network} (hn : n.Filed) {mac : Mac} {a : Authorization}
    (ha : n.authorize mac a = .ok n') : Episode.Follows n ⟨some (mac, .authorized a), .quiet n'⟩ := by
  have hfiled := hn.authorize ha
  obtain ⟨h, hh, rfl⟩ := authorize_ok ha
  refine ⟨hfiled, fun m => ?_, fun m t hsaid => ?_, fun _ => rfl⟩
  · show Becomes (n.hosts.get? m) _ ((Table.insert _ mac _).get? m)
    rw [Table.get?_insert]
    by_cases hm : m = mac
    · subst hm
      have hwords : Episode.words ⟨some (m, .authorized a), .quiet n⟩ m = [.authorized a] := by
        simp [Episode.words, Option.filter]
      rw [if_pos rfl, hh]
      exact hwords ▸ .authorized h a
    · have hwords : Episode.words ⟨some (mac, .authorized a), .quiet n⟩ m = [] := by
        simp [Episode.words, Option.filter, Ne.symm hm]
      rw [if_neg hm]
      exact hwords ▸ .same _
  · cases hsaid

/-- A restore that has every family starts with nothing, takes its reports, and comes to its end. -/
theorem episodes_restore {g : Engine} (hg : g.network.Filed) (now : Instant) (s : Snapshot)
    (hall : (Family.metrics g.config.vlanMetric).all s.contains = true) :
    Chained g.network (g.episodes (.restore now s)) ∧
      networkAfter g.network (g.episodes (.restore now s)) = (g.restore now s).1.network ∧
      (g.episodes (.restore now s)).flatMap Episode.notices = (g.restore now s).2.1 := by
  simp only [episodes]
  obtain ⟨hnetwork, hnotices⟩ := restore_over now hall
  have hreports := chained_episodes .empty g.config g.wiring now
    (s.sampleUpdates g.config.vlanMetric ++ s.lagUpdates g.config.vlanMetric)
  have hafter : networkAfter .empty (Network.empty.episodes g.config g.wiring now
      (s.sampleUpdates g.config.vlanMetric ++ s.lagUpdates g.config.vlanMetric)) =
      (reported g.config g.wiring now s).network := networkAfter_episodes _ _ _ _ _
  have hfiled : (g.restore now s).1.network.Filed := Filed.kept.perform (.restore now s) g hg
  have hfades : Fades (reported g.config g.wiring now s).network (g.restore now s).1.network :=
    hnetwork ▸ fades_finish g.config g.wiring now s _
  rw [if_pos hall]
  refine ⟨⟨follows_quiet .empty fun _ => .gone _ _, chained_append.mpr ⟨hreports, ?_, trivial⟩⟩, ?_, ?_⟩
  · exact hafter ▸ follows_quiet hfiled hfades
  · rw [networkAfter_append]
    rfl
  · rw [List.flatMap_append, List.flatMap_cons, notices_episodes, hnotices]
    simp [Episode.notices, reported]

/-- The episodes of an operation lead where the operation leads, and tell what it tells. -/
theorem episodes_perform {g : Engine} (hg : g.network.Filed) (op : Operation) :
    Chained g.network (g.episodes op) ∧ networkAfter g.network (g.episodes op) = (g.perform op).1.network ∧
      (g.episodes op).flatMap Episode.notices = (g.perform op).2 := by
  cases op with
  | update now u =>
    exact ⟨chained_episodes hg _ _ _ _, networkAfter_episodes _ _ _ _ _, notices_episodes _ _ _ _ _⟩
  | dispatch e =>
    exact ⟨chained_episodes hg _ _ _ _, networkAfter_episodes _ _ _ _ _, notices_episodes _ _ _ _ _⟩
  | configure now w =>
    exact ⟨⟨follows_quiet (hg.refreshLinks w now) (fades_refreshLinks w now _), trivial⟩, rfl, rfl⟩
  | heartbeat now =>
    exact ⟨⟨follows_quiet (hg.heartbeat _) (fades_heartbeat _ _ now _), trivial⟩, rfl, rfl⟩
  | setReadiness r => exact ⟨⟨follows_quiet hg (fades_of_eq rfl), trivial⟩, rfl, rfl⟩
  | authorize mac a =>
    rw [perform_authorize]
    simp only [episodes]
    cases ha : g.network.authorize mac a with
    | error x => exact ⟨trivial, rfl, rfl⟩
    | ok n => exact ⟨⟨follows_authorize hg ha, trivial⟩, rfl, rfl⟩
  | restore now s =>
    by_cases hall : (Family.metrics g.config.vlanMetric).all s.contains = true
    · exact episodes_restore hg now s hall
    · obtain ⟨hnetwork, hnotices⟩ := restore_kept now hall
      simp only [episodes]
      rw [if_neg hall]
      exact ⟨trivial, hnetwork.symm, hnotices.symm⟩

theorem life_run {g : Engine} (hg : g.network.Filed) (ops : List Operation) :
    Chained g.network (g.life ops) ∧ networkAfter g.network (g.life ops) = (g.run ops).1.network ∧
      (g.life ops).flatMap Episode.notices = (g.run ops).2 := by
  induction ops generalizing g with
  | nil => exact ⟨trivial, rfl, rfl⟩
  | cons op r ih =>
    obtain ⟨hchained, hafter, hnotices⟩ := episodes_perform hg op
    obtain ⟨hchained', hafter', hnotices'⟩ := ih (Filed.kept.perform op g hg)
    rw [run_cons, life]
    refine ⟨chained_append.mpr ⟨hchained, hafter.symm ▸ hchained'⟩, ?_, ?_⟩
    · rw [networkAfter_append, hafter, hafter']
    · rw [List.flatMap_append, hnotices, hnotices']

end Engine

/-! ## What is known of hosts -/

/-- The network has what was said of the host in its presence. -/
structure Knows (mac : Mac) (n : Network) (words : List Word) : Prop where
  known : ∀ h, n.hosts.get? mac = some h → Attached h words
  absent : n.hosts.get? mac = none → words = []

namespace Knows

variable {mac : Mac} {n : Network} {words : List Word}

theorem episode (h : Knows mac n words) {x : Episode} (hx : x.Follows n) :
    Knows mac x.network (if x.network.isPresent mac then words ++ x.words mac else []) := by
  have hbecomes := hx.becomes mac
  rw [hx.filed.isPresent]
  cases hafter : x.network.hosts.get? mac with
  | none => exact ⟨fun _ hsome => by simp [hafter] at hsome, fun _ => rfl⟩
  | some h' =>
    rw [hafter] at hbecomes
    refine ⟨fun y hy => ?_, fun hnone => by simp [hafter] at hnone⟩
    cases hafter.symm.trans hy
    exact Attached.becomes hbecomes h.known h.absent

theorem life (h : Knows mac n words) {l : List Episode} (hl : Chained n l) :
    Knows mac (networkAfter n l) (presence mac words l) := by
  induction l generalizing n words with
  | nil => exact h
  | cons x r ih => exact ih (h.episode hl.1) hl.2

/-- The VLAN that a learn is held against is the one given last. -/
theorem vid (h : Knows mac n words) : ((n.hosts.get? mac).getD .fresh).vid = lastVid words := by
  cases hmac : n.hosts.get? mac with
  | none =>
    rw [h.absent hmac]
    rfl
  | some x => exact (h.known x hmac).vid

end Knows

/-- A learn moves the host to another VLAN exactly if it has had one that differs. -/
theorem reassignment_eq_some {h : Host} {t : Traits} {vid : UInt16} :
    reassignment h t = some vid ↔ t.vid = some vid ∧ ∃ old, h.vid = some old ∧ old ≠ vid := by
  unfold reassignment
  cases h.vid with
  | none => simp
  | some old =>
    cases t.vid with
    | none => simp
    | some new =>
      by_cases hsame : old = new
      · subst hsame
        simp
      · simp only [if_neg hsame, Option.some.injEq, exists_eq_left']
        exact ⟨fun heq => ⟨heq, heq ▸ hsame⟩, fun h => h.1⟩

/-- What an engine went through leads to where it is and tells what was told. In it everything that a host
has was said of it in its present presence, and the latest of it counts; who is not present cannot be
authorized, which changes nothing; and a host is said to have another VLAN by a learn, and exactly then
when the VLAN given last in the same presence is another one. -/
theorem Engine.run_attached (config : EngineConfig) (ops : List Operation) :
    let life := (fresh config).life ops
    let g := ((fresh config).run ops).1
    networkAfter .empty life = g.network ∧
    life.flatMap Episode.notices = ((fresh config).run ops).2 ∧
    (∀ n mac, Network.isPresent n mac = true ↔ ∃ s x, n.sighting? mac s = some x) ∧
    (∀ mac h, g.network.hosts.get? mac = some h → Attached h (presence mac [] life)) ∧
    (∀ mac a, g.network.isPresent mac = false →
      g.authorize mac a = .error (.unknownHost mac.text) ∧ g.perform (.authorize mac a) = (g, [])) ∧
    ∀ before x after, life = before ++ x :: after →
      (∀ mac t, x.said = some (mac, .learned t) → x.reassigned.length ≤ 1 ∧ ∀ m vid, (m, vid) ∈ x.reassigned ↔
        m = mac ∧ t.vid = some vid ∧ ∃ old, lastVid (presence mac [] before) = some old ∧ old ≠ vid) ∧
      ((∀ mac t, x.said ≠ some (mac, .learned t)) → x.reassigned = []) := by
  intro life g
  have hfiled : g.network.Filed := Filed.kept.run config ops
  obtain ⟨hchained, hafter, hnotices⟩ := life_run (g := fresh config) .empty ops
  have hfresh (mac : Mac) : Knows mac .empty [] := ⟨fun _ h => by simp [Network.empty] at h, fun _ => rfl⟩
  refine ⟨hafter, hnotices, isPresent_iff, fun mac h hh => ?_, fun mac a habsent => ?_,
    fun before x rest hlife => ?_⟩
  · have hknows : Knows mac g.network (presence mac [] life) := hafter ▸ (hfresh mac).life hchained
    exact hknows.known h hh
  · have hnone : g.network.hosts.get? mac = none := by
      rw [hfiled.isPresent] at habsent
      exact Option.not_isSome_iff_eq_none.mp (by rw [habsent]; decide)
    have hfault : g.network.authorize mac a = .error (.unknownHost mac.text) := by
      rw [Network.authorize, hnone]
    refine ⟨by rw [authorize, hfault]; rfl, ?_⟩
    rw [perform_authorize, hfault]
    rfl
  · rw [show (fresh config).life ops = before ++ x :: rest from hlife] at hchained
    obtain ⟨hbefore, hx, -⟩ := chained_append.mp hchained
    refine ⟨fun mac t hsaid => ?_, hx.unlearned⟩
    have hvid := ((hfresh mac).life hbefore).vid
    rw [hx.learned mac t hsaid]
    refine ⟨?_, fun m vid => ?_⟩
    · cases reassignment _ t <;> simp
    · rw [← hvid, ← reassignment_eq_some, Option.mem_toList, Option.map_eq_some_iff]
      constructor
      · rintro ⟨v, hv, hpair⟩
        cases hpair
        exact ⟨rfl, hv⟩
      · rintro ⟨rfl, hv⟩
        exact ⟨vid, hv, rfl⟩

/-- A host that comes back has nothing of what it had. -/
example :
    let mac : Mac := ⟨"0e:00:00:00:00:0a"⟩
    let n := ((Engine.fresh .usual).run
      [.update 1 (.learn Engine.desk mac ⟨some "10.0.0.1", some 100⟩),
        .authorize mac ⟨some "accept", none, none⟩, .update 2 (.expire Engine.desk mac),
        .update 3 (.learn Engine.desk mac ⟨none, none⟩)]).1.network
    (n.hosts.get? mac).map (fun h => (h.authorization, h.vid, h.ips.keys)) = some (none, none, []) := by
  decide +kernel

end Fabric
