import Fabric.Proofs.Moves
import Mathlib.Algebra.GroupWithZero.Nat
import Mathlib.Data.List.Induction

/-! What the summaries of the switches and of the dataplane say, told from the tables alone: which
parts ail, how bad that is, and how much has changed. The faults are worked out axis by axis and
folded to the worst; here every axis comes in with its condition, so that none can hide another. -/

namespace Fabric

open Network

/-- A list of just those with a property, in ascending order and so each once. -/
structure Lists {κ : Type} [Ord κ] (l : List κ) (p : κ → Prop) : Prop where
  mem : ∀ k, k ∈ l ↔ p k
  ascending : l.Pairwise (compare · · = .lt)

namespace Lists

variable {κ ν : Type} [Ord κ] [Std.LawfulEqOrd κ]

/-- The keys at which a table has a value of some kind. -/
theorem keys (t : Table κ ν) (p : ν → Bool) :
    Lists ((t.toList.filter (p ·.2)).map (·.1)) fun k => ∃ v, t.get? k = some v ∧ p v = true where
  mem k := by
    rw [List.mem_map]
    constructor
    · rintro ⟨⟨k', v⟩, he, rfl⟩
      obtain ⟨hv, hp⟩ := List.mem_filter.mp he
      exact ⟨v, Table.mem_toList.mp hv, hp⟩
    · rintro ⟨v, hv, hp⟩
      exact ⟨(k, v), List.mem_filter.mpr ⟨Table.mem_toList.mpr hv, hp⟩, rfl⟩
  ascending := List.pairwise_map.mpr (t.ascending.filter _)

/-- The same of a table whose values have their keys in them. -/
theorem names (t : Table κ ν) (p : ν → Bool) {name : ν → κ}
    (h : ∀ k v, t.get? k = some v → name v = k) :
    Lists ((t.values.filter p).map name) fun k => ∃ v, t.get? k = some v ∧ p v = true := by
  have hsame : (t.values.filter p).map name = (t.toList.filter (p ·.2)).map (·.1) := by
    rw [Table.values, List.filter_map, List.map_map]
    exact List.map_congr_left fun e he => h e.1 e.2 (Table.mem_toList.mp (List.mem_filter.mp he).1)
  rw [hsame]
  exact keys t p

theorem congr {κ : Type} [Ord κ] {l : List κ} {p q : κ → Prop} (h : Lists l p) (hpq : ∀ k, p k ↔ q k) :
    Lists l q :=
  ⟨fun k => (h.mem k).trans (hpq k), h.ascending⟩

theorem eq_nil_iff {κ : Type} [Ord κ] {l : List κ} {p : κ → Prop} (h : Lists l p) :
    l = [] ↔ ∀ k, ¬ p k := by
  rw [List.eq_nil_iff_forall_not_mem]
  exact forall_congr' fun k => not_congr (h.mem k)

theorem count {κ : Type} [Ord κ] [DecidableEq κ] [Std.LawfulEqOrd κ] {l : List κ} {p : κ → Prop}
    [DecidablePred p] (h : Lists l p) (k : κ) : l.count k = if p k then 1 else 0 := by
  have hnodup : l.Nodup := h.ascending.imp fun hlt heq => by
    rw [heq] at hlt
    simp at hlt
  rw [hnodup.count]
  simp only [h.mem]

end Lists

/-! ## Histories -/

namespace Changes

theorem later_none (a : Option Instant) : later a .none = a := by cases a <;> rfl

theorem later_assoc (a b c : Option Instant) : later (later a b) c = later a (later b c) := by
  cases a <;> cases b <;> cases c <;> simp [later, Int.max_assoc]

theorem none_add (c : Changes) : none.add c = c := by
  obtain ⟨n, l⟩ := c
  show Changes.mk (0 + n) (later .none l) = _
  rw [Nat.zero_add]
  cases l <;> rfl

theorem add_none (c : Changes) : c.add none = c := by
  show Changes.mk (c.count + 0) (later c.last .none) = _
  rw [later_none]
  rfl

theorem add_assoc (a b c : Changes) : (a.add b).add c = a.add (b.add c) := by
  simp only [add, Nat.add_assoc, later_assoc]

theorem foldl_add (cs : List Changes) (a : Changes) : cs.foldl add a = a.add (total cs) := by
  induction cs generalizing a with
  | nil => exact (add_none a).symm
  | cons c r ih => rw [total, List.foldl_cons, List.foldl_cons, ih, ih, none_add, add_assoc]

theorem total_append (cs ds : List Changes) : total (cs ++ ds) = (total cs).add (total ds) := by
  rw [total, List.foldl_append, foldl_add]
  rfl

theorem count_total (cs : List Changes) : (total cs).count = (cs.map (·.count)).sum := by
  induction cs with
  | nil => rfl
  | cons c r ih => rw [Network.total_cons, ih, List.map_cons, List.sum_cons]

/-- The latest of some instants, none if there are none. -/
def IsLatest (ts : List (Option Instant)) : Option Instant → Prop
  | .none => ∀ t, some t ∉ ts
  | some t => some t ∈ ts ∧ ∀ u, some u ∈ ts → u ≤ t

theorem isLatest_cons {ts : List (Option Instant)} {last : Option Instant} (h : IsLatest ts last)
    (t : Option Instant) : IsLatest (t :: ts) (later t last) := by
  cases t with
  | none =>
    cases last with
    | none => exact fun u hu => h u (by simpa using hu)
    | some l => exact ⟨List.mem_cons_of_mem _ h.1, fun u hu => h.2 u (by simpa using hu)⟩
  | some t =>
    cases last with
    | none =>
      refine ⟨List.mem_cons_self, fun u hu => ?_⟩
      rcases List.mem_cons.mp hu with hu | hu
      · exact Int.le_of_eq (Option.some.inj hu)
      · exact absurd hu (h u)
    | some l =>
      refine ⟨?_, fun u hu => ?_⟩
      · rcases Int.le_total t l with hle | hle
        · rw [Int.max_eq_right hle]
          exact List.mem_cons_of_mem _ h.1
        · rw [Int.max_eq_left hle]
          exact List.mem_cons_self
      · rcases List.mem_cons.mp hu with hu | hu
        · cases hu
          exact Int.le_max_left t l
        · exact Int.le_trans (h.2 u hu) (Int.le_max_right t l)

theorem isLatest_total (cs : List Changes) : IsLatest (cs.map (·.last)) (total cs).last := by
  induction cs with
  | nil => exact fun t ht => absurd ht List.not_mem_nil
  | cons c r ih =>
    have hcons : total (c :: r) = c.add (total r) := by
      rw [total, List.foldl_cons, none_add, foldl_add]
    rw [hcons]
    exact isLatest_cons ih c.last

end Changes

/-! ## The worst of faults -/

namespace State

/-- One broken part is enough, wherever it is in the list. -/
theorem foldl_worst {l : List State} (h : ∀ s ∈ l, s = .broken ∨ s = .damaged) :
    l.foldl worst .healthy = if .broken ∈ l then .broken else if l = [] then .healthy else .damaged := by
  induction l using List.reverseRecOn with
  | nil => rfl
  | append_singleton r s ih =>
    rw [List.foldl_append, ih fun s hs => h s (List.mem_append_left _ hs)]
    by_cases hr : State.broken ∈ r
    · rcases h s (by simp) with rfl | rfl <;> simp [hr, worst, severity]
    · rcases h s (by simp) with rfl | rfl <;> by_cases hnil : r = [] <;> simp [hr, hnil, worst, severity]

end State

namespace Network

open Fabric.Text

variable {n : Network} {w : Wiring}

/-! ## What ails the dataplane -/

/-- The members of the egress with their health: whoever reported, and the ports that are configured for
it. One of these that never reported is down. -/
inductive Member (n : Network) (w : Wiring) (e : Endpoint) : MemberHealth → Prop
  | reported (m : EgressMember) (h : n.egress.get? e = some m) : Member n w e m.health
  | silent (i : Interface) (configured : (e, i) ∈ w.endpoints) (egress : i.portType = .egress)
      (h : n.egress.get? e = none) : Member n w e .down

/-- There is an egress and nothing gets out. -/
def Cut (n : Network) (w : Wiring) : Prop := (∃ e h, n.Member w e h) ∧ ∀ e, ¬ n.Member w e .active

def Disconnected (n : Network) (switch : String) : Prop :=
  ∃ s, n.switches.get? switch = some s ∧ s.status ≠ some .connected

def LinkFailed (n : Network) (l : Link) : Prop :=
  ∃ x, n.links.get? l = some x ∧ x.state ≠ .up ∧ x.state ≠ .active

def Flooding (n : Network) (vid : UInt16) : Prop :=
  ∃ c, n.vlans.get? vid = some c ∧ c.flooding = true

def Broken (n : Network) (w : Wiring) : Prop :=
  n.Cut w ∨ (∃ switch, n.Disconnected switch) ∨ ∃ vid, n.Flooding vid

def Damaged (n : Network) (w : Wiring) : Prop :=
  (∃ e, n.Member w e .down) ∨ ∃ l, n.LinkFailed l

/-- Everything that is wrong with the dataplane. -/
structure Ailments where
  cut : Bool
  members : List Endpoint
  switches : List String
  links : List Link
  vlans : List UInt16

namespace Ailments

def clause (what : String) (names : List String) : List String :=
  if names = [] then [] else [what ++ join ", " names]

def clauses (a : Ailments) : List String :=
  (if a.cut then ["No active egress link"]
    else clause "Egress links down: " (a.members.map Endpoint.text)) ++
  clause "Switches down: " a.switches ++
  clause "Links not up: " (a.links.map Link.text) ++
  clause "VLANs over packet rate threshold: " (a.vlans.map fun v => numeral v.toNat)

def text (a : Ailments) : String :=
  if a.clauses = [] then "Dataplane healthy" else join "; " a.clauses

end Ailments

/-- Members that are down are named while another one is active. -/
structure Ails (n : Network) (w : Wiring) (a : Ailments) : Prop where
  cut : a.cut = true ↔ n.Cut w
  members : Lists a.members fun e => n.Member w e .down ∧ ∃ e', n.Member w e' .active
  switches : Lists a.switches n.Disconnected
  links : Lists a.links n.LinkFailed
  vlans : Lists a.vlans n.Flooding

/-- Whatever has a history that counts for the dataplane, each once. -/
def histories (n : Network) : List Changes :=
  n.egress.values.map (·.changes) ++ n.switches.values.map (·.changes) ++ n.links.values.map (·.changes) ++
    [n.topology.linkChanges, n.topology.rootChanges]

/-! ## Members -/

theorem mem_egressPorts {e : Endpoint} :
    e ∈ w.egressPorts ↔ ∃ i, (e, i) ∈ w.endpoints ∧ i.portType = .egress := by
  simp [Wiring.egressPorts, List.mem_mergeSort]

theorem get?_egressMembers (n : Network) (w : Wiring) (e : Endpoint) :
    (n.egressMembers w).get? e =
      (n.egress.get? e).or (if e ∈ w.egressPorts then some .silent else none) := by
  rw [egressMembers, Table.get?_override, Table.get?_ofList_const]

theorem member_iff {e : Endpoint} {h : MemberHealth} :
    n.Member w e h ↔ ∃ m, (n.egressMembers w).get? e = some m ∧ m.health = h := by
  rw [get?_egressMembers]
  constructor
  · rintro (⟨m, hm⟩ | ⟨i, hconf, hegress, hnone⟩)
    · exact ⟨m, by rw [hm]; rfl, rfl⟩
    · exact ⟨.silent, by rw [hnone, if_pos (mem_egressPorts.mpr ⟨i, hconf, hegress⟩)]; rfl, rfl⟩
  · rintro ⟨m, hm, rfl⟩
    cases hreport : n.egress.get? e with
    | some m' =>
      rw [hreport] at hm
      cases hm
      exact .reported m hreport
    | none =>
      rw [hreport, Option.none_or] at hm
      split at hm
      next hconf =>
        cases hm
        obtain ⟨i, hi, hegress⟩ := mem_egressPorts.mp hconf
        exact .silent i hi hegress hreport
      next => cases hm

theorem lists_membersOf (n : Network) (w : Wiring) (h : MemberHealth) :
    Lists (membersOf (n.egressMembers w) h) fun e => n.Member w e h := by
  refine (Lists.keys (n.egressMembers w) fun m => decide (m.health = h)).congr fun e => ?_
  simp only [member_iff, decide_eq_true_eq]

theorem isEmpty_egressMembers : (n.egressMembers w).isEmpty = true ↔ ∀ e h, ¬ n.Member w e h := by
  rw [Table.isEmpty_iff]
  constructor
  · intro hnone e h hmember
    obtain ⟨m, hm, -⟩ := member_iff.mp hmember
    rw [hnone e] at hm
    cases hm
  · intro hnone e
    refine Option.eq_none_iff_forall_ne_some.mpr fun m hm => hnone e m.health ?_
    exact member_iff.mpr ⟨m, hm, rfl⟩

/-! ## The detail -/

def ailments (n : Network) (w : Wiring) : Ailments :=
  let active := membersOf (n.egressMembers w) .active
  { cut := !(n.egressMembers w).isEmpty && active.isEmpty
    members := if active.isEmpty then [] else membersOf (n.egressMembers w) .down
    switches := n.disconnected
    links := n.failedLinks
    vlans := n.floodingVlans }

theorem Filed.lists_disconnected (h : n.Filed) : Lists n.disconnected n.Disconnected :=
  (Lists.names n.switches (!·.isConnected) h.named).congr fun _ => by
    simp [Disconnected, Switch.isConnected]

theorem Filed.lists_failedLinks (h : n.Filed) : Lists n.failedLinks n.LinkFailed :=
  (Lists.names n.links (!·.state.isHealthy) h.keyed).congr fun l => by
    refine exists_congr fun x => and_congr_right fun _ => ?_
    cases x.state <;> decide

theorem lists_floodingVlans (n : Network) : Lists n.floodingVlans n.Flooding :=
  Lists.keys n.vlans (·.flooding)

theorem Filed.ails (h : n.Filed) (w : Wiring) : n.Ails w (n.ailments w) where
  cut := by
    have hactive := (lists_membersOf n w .active).eq_nil_iff
    simp only [ailments, Bool.and_eq_true, Bool.not_eq_true', List.isEmpty_iff, Cut, hactive]
    rw [← Bool.not_eq_true, isEmpty_egressMembers]
    simp only [not_forall, not_not]
  members := by
    have hactive := (lists_membersOf n w .active).eq_nil_iff
    by_cases hnil : membersOf (n.egressMembers w) .active = []
    · have hnobody : ∀ e, ¬ n.Member w e .active := hactive.mp hnil
      simp only [ailments, hnil, List.isEmpty_nil, if_true]
      refine ⟨fun e => ⟨fun he => absurd he List.not_mem_nil, ?_⟩, .nil⟩
      rintro ⟨-, e', he'⟩
      exact absurd he' (hnobody e')
    · have hsomebody : ∃ e, n.Member w e .active := not_forall_not.mp (mt hactive.mpr hnil)
      simp only [ailments, List.isEmpty_eq_false_iff.mpr hnil, Bool.false_eq_true, if_false]
      exact (lists_membersOf n w .down).congr fun e => (and_iff_left hsomebody).symm
  switches := h.lists_disconnected
  links := h.lists_failedLinks
  vlans := lists_floodingVlans n

theorem egressSummary?_eq (n : Network) (w : Wiring) :
    let active := membersOf (n.egressMembers w) .active
    let down := membersOf (n.egressMembers w) .down
    n.egressSummary? w =
      if (n.egressMembers w).isEmpty then none
      else if active = [] then some ⟨.broken, "No active egress link", n.egress.changes⟩
      else if down = [] then
        some ⟨.healthy, numeral active.length ++ " active egress links", n.egress.changes⟩
      else some ⟨.damaged, "Egress links down: " ++ listed (down.map Endpoint.text), n.egress.changes⟩ := by
  intro active down
  unfold egressSummary?
  refine ite_congr rfl (fun _ => rfl) fun _ => ?_
  split
  next hactive => rw [if_pos hactive]
  next hdown hactive => rw [if_neg hactive, if_pos hdown]
  next hactive hdown => rw [if_neg hactive, if_neg hdown]

theorem egressFaults (n : Network) (w : Wiring) :
    (match n.egressSummary? w with
      | some s => if s.state = .healthy then [] else [(s.state, s.detail)]
      | none => []) =
    if (n.ailments w).cut then [(.broken, "No active egress link")]
    else
      (Ailments.clause "Egress links down: " ((n.ailments w).members.map Endpoint.text)).map
        (.damaged, ·) := by
  rw [egressSummary?_eq]
  by_cases hmembers : (n.egressMembers w).isEmpty = true
  · have hdown : membersOf (n.egressMembers w) .down = [] :=
      (lists_membersOf n w .down).eq_nil_iff.mpr fun e => isEmpty_egressMembers.mp hmembers e .down
    simp [ailments, Ailments.clause, hmembers, hdown]
  · by_cases hactive : membersOf (n.egressMembers w) .active = []
    · simp [ailments, hmembers, hactive]
    · by_cases hdown : membersOf (n.egressMembers w) .down = []
      · simp [ailments, Ailments.clause, hmembers, hactive, hdown]
      · simp [ailments, Ailments.clause, listed, hmembers, hactive, hdown]

/-- The faults, axis by axis. -/
theorem dataplaneFaults_eq (n : Network) (w : Wiring) :
    let a := n.ailments w
    n.dataplaneFaults w =
      (if a.cut then [(.broken, "No active egress link")]
        else (Ailments.clause "Egress links down: " (a.members.map Endpoint.text)).map (.damaged, ·)) ++
      (Ailments.clause "Switches down: " a.switches).map (.broken, ·) ++
      (Ailments.clause "Links not up: " (a.links.map Link.text)).map (.damaged, ·) ++
      (Ailments.clause "VLANs over packet rate threshold: " (a.vlans.map fun v => numeral v.toNat)).map
        (.broken, ·) := by
  have hclause (state : State) (what : String) (names : List String) :
      (if names.isEmpty then [] else [(state, what ++ listed names)]) =
        (Ailments.clause what names).map (state, ·) := by
    cases names <;> simp [Ailments.clause, listed]
  intro a
  rw [← egressFaults]
  unfold dataplaneFaults
  simp only [hclause]
  rfl

theorem dataplaneSummary_detail (n : Network) (w : Wiring) :
    (n.dataplaneSummary w).detail = (n.ailments w).text := by
  have hclauses : (n.dataplaneFaults w).map (·.2) = (n.ailments w).clauses := by
    rw [dataplaneFaults_eq, Ailments.clauses]
    simp only [List.map_append, apply_ite (List.map Prod.snd), List.map_map, Function.comp_def, List.map_id',
      List.map_cons, List.map_nil]
  unfold dataplaneSummary Ailments.text
  rw [← hclauses]
  simp

/-! ## The state -/

/-- The states that the faults have. -/
theorem mem_faults {state : State} :
    state ∈ (n.dataplaneFaults w).map (·.1) ↔
      state = .broken ∧
        ((n.ailments w).cut = true ∨ (n.ailments w).switches ≠ [] ∨ (n.ailments w).vlans ≠ []) ∨
      state = .damaged ∧
        ((n.ailments w).cut = false ∧ (n.ailments w).members ≠ [] ∨ (n.ailments w).links ≠ []) := by
  have hclause {κ : Type} (s : State) (what : String) (name : κ → String) (l : List κ) :
      state ∈ ((Ailments.clause what (l.map name)).map (s, ·)).map (·.1) ↔ state = s ∧ l ≠ [] := by
    cases l <;> simp [Ailments.clause]
  have hswitches := hclause .broken "Switches down: " id (n.ailments w).switches
  rw [List.map_id] at hswitches
  rw [dataplaneFaults_eq]
  simp only [List.map_append, List.mem_append, hswitches, hclause]
  cases (n.ailments w).cut with
  | true =>
    simp only [if_true, List.map_cons, List.map_nil, List.mem_singleton]
    grind
  | false =>
    simp only [Bool.false_eq_true, if_false, hclause]
    grind

theorem Filed.mem_broken (h : n.Filed) : .broken ∈ (n.dataplaneFaults w).map (·.1) ↔ n.Broken w := by
  have hails := h.ails w
  simp only [mem_faults, hails.cut, ne_eq, hails.switches.eq_nil_iff, hails.vlans.eq_nil_iff, Broken,
    not_forall, not_not, true_and, reduceCtorEq, false_and, or_false]

/-- A member that is down counts with nobody active too, but then the egress is cut. -/
theorem Filed.mem_damaged (h : n.Filed) (hbroken : ¬ n.Broken w) :
    .damaged ∈ (n.dataplaneFaults w).map (·.1) ↔ n.Damaged w := by
  have hails := h.ails w
  have hcut : (n.ailments w).cut = false :=
    Bool.eq_false_iff.mpr fun hcut => hbroken (.inl (hails.cut.mp hcut))
  have hactive : ∀ e h, n.Member w e h → ∃ e', n.Member w e' .active := by
    intro e h hmember
    by_contra hnone
    exact hbroken (.inl ⟨⟨e, h, hmember⟩, not_exists.mp hnone⟩)
  simp only [mem_faults, hcut, ne_eq, hails.members.eq_nil_iff, hails.links.eq_nil_iff, Damaged, not_forall,
    not_not, true_and, reduceCtorEq, false_and, false_or]
  exact or_congr_left (exists_congr fun e => and_iff_left_of_imp (hactive e .down))

theorem Filed.dataplaneSummary_state (h : n.Filed) (w : Wiring) [Decidable (n.Broken w)]
    [Decidable (n.Damaged w)] : (n.dataplaneSummary w).state =
      if n.Broken w then .broken else if n.Damaged w then .damaged else .healthy := by
  have hstates : ∀ s ∈ (n.dataplaneFaults w).map (·.1), s = .broken ∨ s = .damaged := fun s hs =>
    (mem_faults.mp hs).imp And.left And.left
  show ((n.dataplaneFaults w).map (·.1)).foldl State.worst .healthy = _
  rw [State.foldl_worst hstates]
  refine ite_congr (propext h.mem_broken) (fun _ => rfl) fun hbroken => ?_
  have hnil : (n.dataplaneFaults w).map (·.1) = [] ↔ ¬ n.Damaged w := by
    rw [← h.mem_damaged hbroken, List.eq_nil_iff_forall_not_mem]
    refine ⟨fun hnone => hnone _, fun hnone s hs => ?_⟩
    rcases hstates s hs with rfl | rfl
    · exact hbroken (h.mem_broken.mp hs)
    · exact hnone hs
  by_cases hdamaged : n.Damaged w
  · rw [if_neg fun he => hnil.mp he hdamaged, if_pos hdamaged]
  · rw [if_pos (hnil.mpr hdamaged), if_neg hdamaged]

/-! ## The changes -/

theorem dataplaneChanges_eq (n : Network) (w : Wiring) : n.dataplaneChanges w = .total n.histories := by
  have hegress : (if (n.egressSummary? w).isSome then n.egress.changes else .none) = n.egress.changes := by
    split
    · rfl
    next hnone =>
      rw [egressSummary?_eq] at hnone
      have hempty : (n.egressMembers w).isEmpty = true := by
        by_contra hne
        rw [if_neg hne] at hnone
        split at hnone
        · exact hnone rfl
        · split at hnone <;> exact hnone rfl
      have hnil : n.egress.entries = [] := Table.isEmpty_foldl_insert hempty
      unfold EgressGroup.changes Table.values
      rw [hnil]
      rfl
  -- a total of totals is the total of everything
  unfold dataplaneChanges histories
  simp only [hegress, Changes.total_append]
  simp only [Changes.total, List.foldl_cons, List.foldl_nil, Changes.none_add]
  simp only [Changes.add_assoc]
  rfl

/-- A verdict with everything that it says. -/
structure Verdict (n : Network) (w : Wiring) (s : Summary) : Prop where
  broken : s.state = .broken ↔ n.Broken w
  damaged : s.state = .damaged ↔ ¬ n.Broken w ∧ n.Damaged w
  healthy : s.state = .healthy ↔ ¬ n.Broken w ∧ ¬ n.Damaged w
  count : s.changes.count = (n.histories.map (·.count)).sum
  last : Changes.IsLatest (n.histories.map (·.last)) s.changes.last
  detail : ∃ a, n.Ails w a ∧ s.detail = a.text

theorem Filed.verdict (h : n.Filed) (w : Wiring) : n.Verdict w (n.dataplaneSummary w) := by
  classical
  have hstate := h.dataplaneSummary_state w
  have hchanges : (n.dataplaneSummary w).changes = .total n.histories := dataplaneChanges_eq n w
  refine
    { broken := ?_, damaged := ?_, healthy := ?_, count := ?_, last := ?_
      detail := ⟨n.ailments w, h.ails w, dataplaneSummary_detail n w⟩ }
  · grind
  · grind
  · grind
  · rw [hchanges]
    exact Changes.count_total n.histories
  · rw [hchanges]
    exact Changes.isLatest_total n.histories

theorem Filed.switchSummary_healthy (h : n.Filed) : n.switchSummary.state = .healthy ↔
    (∃ name s, n.switches.get? name = some s) ∧ ∀ name, ¬ n.Disconnected name := by
  rw [← h.lists_disconnected.eq_nil_iff]
  unfold switchSummary
  split
  next hempty =>
    rw [Table.isEmpty_iff] at hempty
    simp [Summary.broken, hempty]
  next hsome =>
    have hsome : ∃ name s, n.switches.get? name = some s := by
      rw [Table.isEmpty_iff, not_forall] at hsome
      exact hsome.imp fun _ => Option.ne_none_iff_exists'.mp
    cases n.disconnected <;> simp [hsome]

end Network

/-- Whatever was done to an engine, the summary of the dataplane is broken if there is an egress with no
active member, or some switch is not connected, or some VLAN is over its threshold; damaged if not and
some member is down or some link neither up nor active; and healthy otherwise. It counts the changes of
all switches, links and members that reported and of the topology, dates from the latest of them, and
names everything that ails. The summary of the switches is healthy when there are any and all of them are
connected. -/
theorem Engine.run_verdict (config : EngineConfig) (ops : List Operation) :
    let g := ((fresh config).run ops).1
    g.network.Verdict g.wiring (g.network.dataplaneSummary g.wiring) ∧
    (g.network.switchSummary.state = .healthy ↔
      (∃ name s, g.network.switches.get? name = some s) ∧
        ∀ name s, g.network.switches.get? name = some s → s.status = some .connected) := by
  intro g
  have hfiled : g.network.Filed := Filed.kept.run config ops
  refine ⟨hfiled.verdict g.wiring, ?_⟩
  rw [hfiled.switchSummary_healthy]
  simp only [Disconnected, not_exists, not_and, not_not]

/-- A configured port that keeps silent is down beside an active member. -/
example :
    let uplink : Interface := ⟨none, none, none, none, some 1, none, none, [], none⟩
    let wiring : Wiring := ⟨Table.ofList [("s1", ⟨none, none, Table.ofList [(.number 2, uplink)], ∅⟩)]⟩
    let g := ((Engine.fresh .usual).run
      [.configure 1 wiring, .update 2 (.connection "s1" none true),
        .update 3 (.lag ⟨"s1", 1⟩ (some .up) (some .selected))]).1
    g.network.dataplaneSummary g.wiring = ⟨.damaged, "Egress links down: s1:2", ⟨2, some 3⟩⟩ := by
  decide +kernel

end Fabric
