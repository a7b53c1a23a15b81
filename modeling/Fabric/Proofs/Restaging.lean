import Fabric.Engine.Query
import Fabric.Proofs.Alike
import Fabric.Proofs.Coalescing

/-! Announcing again, in other words, what is in force. The announcement waits like any other, and the
heartbeat that takes it finds that nothing is new: no link, counter or time moves (`run_restaged`). It
may take the place of another announcement that waits, and it may still wait when the next one comes.
Neither puts the next one off: without it the last change would be no earlier and the wait no longer
(`NoLater`). Only the hash tells the next one from what is in force: one that is different and has the same
hash is dropped, though it may be applied where the announcement before it was not dropped as well
(`restaging_matters`). -/

namespace Fabric

open Network

/-- When the wait of an announcement that comes now counts from. -/
def TopologyStatus.since (t : TopologyStatus) (now : Instant) : Instant := (t.staged.map (·.since)).getD now

/-- The view but for what waits. -/
def DataplaneView.settled (v : DataplaneView) : DataplaneView :=
  { v with topology := { v.topology with staged := none } }

namespace Engine

variable {g g' : Engine} {t : Topology} {now later : Instant}

/-! ## Heartbeats -/

theorem run_stage (g : Engine) (now : Instant) (t : Topology) (ops : List Operation) :
    g.run (.update now (.stage t) :: ops) =
      (g.withStaged (some ⟨t, g.network.topology.since now⟩)).run ops := by
  rw [run_cons]
  rfl

theorem run_beats_idle (h : g.network.topology.staged = none) (beats : List Instant) :
    g.run (beats.map .heartbeat) = (g, []) := by
  induction beats with
  | nil => rfl
  | cons beat r ih =>
    have hbeat : g.perform (.heartbeat beat) = (g, []) := by
      simp [perform, Engine.heartbeat, Network.heartbeat_idle h]
    rw [List.map_cons, run_cons, hbeat]
    dsimp only
    rw [ih]
    rfl

theorem staged_of_takes {beat : Instant} (h : g.takes (.heartbeat beat) = true) :
    (g.heartbeat beat).1.network.topology.staged = none :=
  Option.isNone_iff_eq_none.mp (Bool.and_eq_true_iff.mp h).2

/-- The first heartbeat that finds something due is the only one that does anything. -/
theorem run_beats (g : Engine) (beats : List Instant) :
    (g.run (beats.map .heartbeat) = (g, []) ∧ ∀ beat ∈ beats, g.takes (.heartbeat beat) = false) ∨
      ∃ beat ∈ beats, g.takes (.heartbeat beat) = true ∧
        g.run (beats.map .heartbeat) = ((g.heartbeat beat).1, []) := by
  induction beats with
  | nil => exact .inl ⟨rfl, by simp⟩
  | cons beat r ih =>
    have hperform : g.perform (.heartbeat beat) = ((g.heartbeat beat).1, []) := rfl
    rw [List.map_cons, run_cons, hperform]
    cases htakes : g.takes (.heartbeat beat) with
    | true =>
      refine .inr ⟨beat, List.mem_cons_self, htakes, ?_⟩
      rw [run_beats_idle (staged_of_takes htakes)]
      rfl
    | false =>
      rw [heartbeat_of_not_takes htakes]
      rcases ih with ⟨hrun, hr⟩ | ⟨x, hx, hxtakes, hrun⟩
      · exact .inl ⟨by rw [hrun]; rfl, List.forall_mem_cons.mpr ⟨htakes, hr⟩⟩
      · exact .inr ⟨x, List.mem_cons_of_mem _ hx, hxtakes, by rw [hrun]; rfl⟩

/-- Something that waits is due. -/
theorem takes_withStaged (g : Engine) (s : Staged) (beat : Instant) :
    (g.withStaged (some s)).takes (.heartbeat beat) = isDue g.config.window beat g.network.topology s := by
  rw [Bool.eq_iff_iff, takes_heartbeat]
  constructor
  · rintro ⟨s', hs, hdue⟩
    cases hs
    exact hdue
  · exact fun hdue => ⟨s, rfl, hdue⟩

/-- An announcement in the place of another one is due when that one would be. -/
theorem takes_replaced {s : Staged} (hs : g.network.topology.staged = some s) (t : Topology)
    (now beat : Instant) : g.takes (.heartbeat beat) =
      isDue g.config.window beat g.network.topology ⟨t, g.network.topology.since now⟩ := by
  have hsince : g.network.topology.since now = s.since := by simp [TopologyStatus.since, hs]
  rw [hsince]
  have hg : g = g.withStaged (some s) := by
    rw [← hs]
    rfl
  rw [hg, takes_withStaged]
  rfl

/-- What is in force, announced again: it waits on, or is dropped as soon as it is due. -/
theorem run_restaged (happlied : g.network.topology.appliedAt.isSome = true)
    (hsame : g.network.topology.applied = t) (now : Instant) (beats : List Instant) :
    let due beat := isDue g.config.window beat g.network.topology ⟨t, g.network.topology.since now⟩
    ∃ x, g.run (.update now (.stage t) :: beats.map .heartbeat) = (g.withStaged x, []) ∧
      ((x = some ⟨t, g.network.topology.since now⟩ ∧ ∀ beat ∈ beats, due beat = false) ∨
        (x = none ∧ ∃ beat ∈ beats, due beat = true)) := by
  intro due
  rw [run_stage]
  rcases run_beats (g.withStaged (some ⟨t, g.network.topology.since now⟩)) beats with
    ⟨hrun, hnone⟩ | ⟨beat, hbeat, htakes, hrun⟩
  · exact ⟨_, hrun, .inl ⟨rfl, fun beat hbeat => by rw [← hnone beat hbeat, takes_withStaged]⟩⟩
  · have hdropped := heartbeat_of_takes htakes rfl
    rw [if_pos (by rw [← hsame]; exact TopologyStatus.hash?_eq happlied)] at hdropped
    rw [hdropped] at hrun
    rw [takes_withStaged] at htakes
    exact ⟨none, hrun, .inr ⟨rfl, beat, hbeat, htakes⟩⟩

/-- No heartbeat finds a change when what waits is in force. -/
theorem heartbeat_in_force {x : Option Staged}
    (hx : ∀ s ∈ x, g.network.topology.hash? = some s.topology.hash) (beat : Instant) :
    ((g.withStaged x).heartbeat beat).2 = false := by
  rcases heartbeat_outcome (g.withStaged x) beat with ⟨heq, -⟩ | ⟨s, -, -, -, heq⟩ | ⟨s, hs, -, hnew, -⟩
  · rw [heq]
  · rw [heq]
  · exact absurd (hx s hs) hnew

/-! ## The next announcement -/

/-- What the first engine is told at this time is taken by it no later than by the second one. -/
structure NoLater (g g' : Engine) (later : Instant) : Prop where
  window : g.config.window = g'.config.window
  since : g.network.topology.since later ≤ g'.network.topology.since later
  applied : ∃ last last', g.network.topology.appliedAt = some last ∧
    g'.network.topology.appliedAt = some last' ∧ last ≤ last'

theorem NoLater.takes (h : NoLater g g' later) {c : Topology} {beat : Instant}
    (htakes : (g'.withStaged (some ⟨c, g'.network.topology.since later⟩)).takes (.heartbeat beat) = true) :
    (g.withStaged (some ⟨c, g.network.topology.since later⟩)).takes (.heartbeat beat) = true := by
  obtain ⟨last, last', hlast, hlast', hle⟩ := h.applied
  rw [takes_withStaged] at htakes ⊢
  simp only [isDue, hlast, hlast', h.window, Option.all_some, Bool.or_eq_true, decide_eq_true_eq] at htakes ⊢
  rcases htakes with hlong | hceiling
  · exact .inl (Int.lt_of_lt_of_le hlong (Int.sub_le_sub_left hle beat))
  · exact .inr (Int.lt_of_lt_of_le hceiling (Int.sub_le_sub_left h.since beat))

/-- The first engine is done with what it is told as soon as the second one is: it is in force then,
unless it has the hash of what is. -/
theorem NoLater.settles (h : NoLater g g' later) (c : Topology) (beats : List Instant)
    (hdone : (g'.run (.update later (.stage c) :: beats.map .heartbeat)).1.network.topology.staged = none) :
    let r := (g.run (.update later (.stage c) :: beats.map .heartbeat)).1
    r.network.topology.staged = none ∧
      if g.network.topology.hash? = some c.hash then r = g.withStaged none
      else r.network.topology.applied = c := by
  intro r
  obtain ⟨beat, hbeat, htakes⟩ : ∃ beat ∈ beats,
      (g'.withStaged (some ⟨c, g'.network.topology.since later⟩)).takes (.heartbeat beat) = true := by
    rw [run_stage] at hdone
    rcases run_beats (g'.withStaged (some ⟨c, g'.network.topology.since later⟩)) beats with
      ⟨hrun, -⟩ | ⟨beat, hbeat, htakes, -⟩
    · rw [hrun] at hdone
      cases hdone
    · exact ⟨beat, hbeat, htakes⟩
  have hr : r = (g.run (.update later (.stage c) :: beats.map .heartbeat)).1 := rfl
  rw [run_stage] at hr
  rcases run_beats (g.withStaged (some ⟨c, g.network.topology.since later⟩)) beats with
    ⟨-, hnone⟩ | ⟨first, -, hfirst, hrun⟩
  · have hnot := hnone beat hbeat
    rw [h.takes htakes] at hnot
    cases hnot
  · rw [hr, hrun]
    refine ⟨staged_of_takes hfirst, ?_⟩
    have htaken := heartbeat_of_takes hfirst rfl
    have hhash : (g.withStaged (some ⟨c, g.network.topology.since later⟩)).network.topology.hash? =
        g.network.topology.hash? := rfl
    rw [hhash] at htaken
    split at htaken
    next hsame =>
      rw [if_pos hsame, htaken]
      rfl
    next hnew =>
      rw [if_neg hnew]
      exact htaken.2.1

/-- What waited would have been taken by the same heartbeat, and then have counted as the last change. -/
theorem noLater_restaged (happlied : g.network.topology.appliedAt.isSome = true)
    (hsame : g.network.topology.applied = t) {beats : List Instant} (hnow : now ≤ later)
    (hbeats : ∀ last ∈ g.network.topology.appliedAt, ∀ beat ∈ beats, last ≤ beat) :
    NoLater (g.run (.update now (.stage t) :: beats.map .heartbeat)).1
      (g.run (beats.map .heartbeat)).1 later := by
  obtain ⟨last, hlast⟩ := Option.isSome_iff_exists.mp happlied
  obtain ⟨x, hrun, hx⟩ := run_restaged happlied hsame now beats
  rw [hrun]
  rcases run_beats g beats with ⟨hidle, hnone⟩ | ⟨beat, hbeat, htakes, htaken⟩
  · rw [hidle]
    refine ⟨rfl, ?_, last, last, hlast, hlast, Int.le_refl _⟩
    cases hs : g.network.topology.staged with
    | none =>
      rcases hx with ⟨rfl, -⟩ | ⟨rfl, -⟩ <;> simp [TopologyStatus.since, withStaged, Network.withStaged, hs, hnow]
    | some s =>
      rcases hx with ⟨rfl, -⟩ | ⟨-, beat, hbeat, hdue⟩
      · simp [TopologyStatus.since, withStaged, Network.withStaged, hs]
      · have hnot := hnone beat hbeat
        rw [takes_replaced hs t now] at hnot
        cases hnot.symm.trans hdue
  · obtain ⟨s, hs, -⟩ := (takes_heartbeat g beat).mp htakes
    have hgone : x = none := by
      rcases hx with ⟨-, hnone⟩ | ⟨hgone, -⟩
      · rw [takes_replaced hs t now] at htakes
        cases (hnone beat hbeat).symm.trans htakes
      · exact hgone
    have hchange : ∃ last', (g.heartbeat beat).1.network.topology.appliedAt = some last' ∧ last ≤ last' := by
      have houtcome := heartbeat_of_takes htakes hs
      split at houtcome
      · exact ⟨last, by rw [houtcome]; exact hlast, Int.le_refl _⟩
      · exact ⟨beat, houtcome.2.2, hbeats last hlast beat hbeat⟩
    obtain ⟨last', hlast', hle⟩ := hchange
    rw [htaken, hgone]
    refine ⟨rfl, ?_, last, last', hlast, hlast', hle⟩
    simp [TopologyStatus.since, staged_of_takes htakes, withStaged, Network.withStaged]

/-! ## Nobody notices -/

theorem settled_withStaged (g : Engine) (x : Option Staged) :
    (g.withStaged x).dataplane.map DataplaneView.settled = g.dataplane.map DataplaneView.settled := by
  unfold dataplane ask withStaged
  cases g.readiness <;> rfl

theorem dataplaneSummary_withStaged (g : Engine) (x : Option Staged) :
    (g.withStaged x).dataplaneSummary = g.dataplaneSummary := by
  unfold dataplaneSummary summarize ask withStaged
  cases g.readiness <;> rfl

/-- Two announcements that are alike come to the same topology. So, while the first of them is in force, the
second one is staged and taken without a trace: whatever heartbeats follow, nothing but what waits is
another than before, nobody is told anything and no heartbeat finds a change. The next announcement is
taken no later than it would be without the second one, as long as time does not run backwards, and is in
force then, unless it has the hash of what is in force and so moves nothing. -/
theorem restaged_unnoticed (a b : Announcement) (alike : a.Alike b) :
    a.topology = b.topology ∧
    ∀ g : Engine, g.network.topology.appliedAt.isSome = true → g.network.topology.applied = a.topology →
    ∀ (now : Instant) (beats : List Instant),
      let r := g.run (.update now (.stage b.topology) :: beats.map .heartbeat)
      (∃ x, r.1 = g.withStaged x) ∧ r.2 = [] ∧ (∀ beat, (r.1.heartbeat beat).2 = false) ∧
      r.1.dataplane.map DataplaneView.settled = g.dataplane.map DataplaneView.settled ∧
      r.1.dataplaneSummary = g.dataplaneSummary ∧
      ∀ (c : Announcement) (later : Instant) (after : List Instant), now ≤ later →
        (∀ last ∈ g.network.topology.appliedAt, ∀ beat ∈ beats, last ≤ beat) →
        let next := .update later (.stage c.topology) :: after.map .heartbeat
        ((g.run (beats.map .heartbeat)).1.run next).1.network.topology.staged = none →
        (r.1.run next).1.network.topology.staged = none ∧
          if c.topology.hash = a.topology.hash then (r.1.run next).1 = g.withStaged none
          else (r.1.run next).1.network.topology.applied = c.topology := by
  have hsame : a.topology = b.topology := alike.topology_eq
  refine ⟨hsame, fun g happlied hforce now beats => ?_⟩
  rw [hsame] at hforce
  have hhash : g.network.topology.hash? = some b.topology.hash := by
    rw [TopologyStatus.hash?_eq happlied, hforce]
  obtain ⟨x, hrun, hx⟩ := run_restaged happlied hforce now beats
  intro r
  have hr : r = (g.withStaged x, []) := hrun
  refine ⟨⟨x, by rw [hr]⟩, by rw [hr], fun beat => ?_, ?_, ?_, fun c later after hlater hbeats => ?_⟩
  · rw [hr]
    refine heartbeat_in_force (fun s hs => ?_) beat
    rcases hx with ⟨rfl, -⟩ | ⟨rfl, -⟩
    · cases hs
      rw [hhash]
    · cases hs
  · rw [hr]
    exact settled_withStaged g x
  · rw [hr]
    exact dataplaneSummary_withStaged g x
  · intro next hdone
    have hsettled := (noLater_restaged happlied hforce hlater hbeats).settles c.topology after hdone
    rw [hrun] at hsettled
    have hkept : (g.withStaged x).network.topology.hash? = some a.topology.hash := by
      rw [hsame]
      exact hhash
    rw [hkept] at hsettled
    simp only [Option.some.injEq, eq_comm (a := a.topology.hash)] at hsettled
    rw [hr]
    exact hsettled

section Small

/-- One link, twice announced: the second time from either end, with a bare number or a blank too many,
next to a link that cannot be read, and with switches that have no root hop port. -/
def firstWords : Announcement :=
  ⟨"sw1", [⟨some "sw1:1-sw2:2", "sw1", "Port 1", "sw2", "Port 2"⟩], .ofList [("sw2", some 2)]⟩
def otherWords : Announcement :=
  ⟨"sw1", [⟨none, "sw2", "2", "sw1", "Port 1 "⟩, ⟨none, "sw1", "Port", "sw3", "Port 1"⟩,
    ⟨some "", "sw1", "01", "sw2", "Port 2"⟩], .ofList [("sw1", none), ("sw2", some 2), ("sw3", some 0)]⟩

def nextWords : Announcement := ⟨"sw2", [], ∅⟩

/-- What the first words say is in force. -/
def firstEngine : Engine :=
  ((fresh .usual).run [.update 0 (.stage firstWords.topology), .heartbeat 0]).1

theorem restaged_unnoticed_small :
    let r := firstEngine.run (.update 1000 (.stage otherWords.topology) :: [1500].map .heartbeat)
    let next := .update 2000 (.stage nextWords.topology) :: [2001].map .heartbeat
    firstWords.Alike otherWords ∧ firstEngine.network.topology.appliedAt.isSome = true ∧
      firstEngine.network.topology.applied = firstWords.topology ∧
      r.1.dataplaneSummary = firstEngine.dataplaneSummary ∧
      (r.1.run next).1.network.topology.staged = none := by
  have alike : firstWords.Alike otherWords := Announcement.alike_iff.mpr (by decide +kernel)
  have happlied : firstEngine.network.topology.appliedAt.isSome = true := by decide +kernel
  have hforce : firstEngine.network.topology.applied = firstWords.topology := by decide +kernel
  obtain ⟨-, -, -, -, hsummary, hnext⟩ :=
    (restaged_unnoticed firstWords otherWords alike).2 firstEngine happlied hforce 1000 [1500]
  have hdone := (hnext nextWords 2000 [2001] (by decide) (by decide +kernel) (by decide +kernel)).1
  exact ⟨alike, happlied, hforce, hsummary, hdone⟩

/-- Two links, and the ports that lead over them to the root. -/
def hopWords (p q : UInt32) : Announcement :=
  ⟨"sw1", [⟨none, "sw1", "1", "sw2", "1"⟩, ⟨none, "sw1", "2", "sw3", "1"⟩],
    .ofList [("sw2", some p), ("sw3", some q)]⟩

/-- Other ports of the same hash. -/
def sameHash : Announcement := hopWords 432395848 4256252279

/-- The same with the links in another order. -/
def hopWordsAgain (p q : UInt32) : Announcement :=
  (hopWords p q).withLinks [⟨none, "sw1", "2", "sw3", "1"⟩, ⟨none, "sw1", "1", "sw2", "1"⟩]

/-- The ports of one announcement are in force, and another root waits. -/
def hopEngine : Engine :=
  ((fresh .usual).run [.update 0 (.stage (hopWords 4040636042 3574808973).topology), .heartbeat 0,
    .update 1000 (.stage nextWords.topology)]).1

/-- What is in force, announced again in other words, takes the place of what waits. Without it the next
announcement is put in force at 5000; with it the next announcement meets a topology of the same hash and is
dropped, different as it is. -/
theorem restaging_matters :
    let again := hopWordsAgain 4040636042 3574808973
    let next := .update 3000 (.stage sameHash.topology) :: [5000].map .heartbeat
    let without := ((hopEngine.run ([2500].map .heartbeat)).1.run next).1
    let restaged := ((hopEngine.run (.update 1500 (.stage again.topology) :: [2500].map .heartbeat)).1.run next).1
    (hopWords 4040636042 3574808973).Alike again ∧ hopEngine.network.topology.appliedAt.isSome = true ∧
      hopEngine.network.topology.applied = (hopWords 4040636042 3574808973).topology ∧
      sameHash.topology ≠ (hopWords 4040636042 3574808973).topology ∧
      without.network.topology.applied = sameHash.topology ∧
      restaged.network.topology.staged = none ∧
      restaged.network.topology.applied = (hopWords 4040636042 3574808973).topology := by
  have alike : (hopWords 4040636042 3574808973).Alike (hopWordsAgain 4040636042 3574808973) :=
    Announcement.alike_iff.mpr (by decide +kernel)
  refine ⟨alike, ?_⟩
  decide +kernel

end Small
end Engine
end Fabric
