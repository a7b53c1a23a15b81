import Fabric.Proofs.Verdict

/-! Which ports are listed for egress. A port is what the first interface with its number says, and without
one what the first range over it says. The list goes through the interfaces by themselves: it has a port
once for every interface with its number that is for egress (`count_egressPorts`), whether or not it is
the first one, and no port that only a range is for. So it is the list of the ports of that type for just
those configurations that leave no room for a difference (`lists_egressPorts_iff`). -/

namespace Fabric

namespace Wiring

variable {w : Wiring} {e : Endpoint}

/-- The interfaces with the number of the port, in the order of their keys. -/
def bearers (w : Wiring) (e : Endpoint) : List Interface :=
  match w.switches.get? e.switch with
  | some s => (s.numbered.filter (·.1 = e.port)).map (·.2)
  | none => []

/-- The first range that covers the port. -/
def coverer? (w : Wiring) (e : Endpoint) : Option Interface :=
  (w.switches.get? e.switch).bind (·.range? e.port)

/-- A configuration that says of no port in two ways whether it is for egress, nor says so by a range. -/
structure Unequivocal (w : Wiring) : Prop where
  once : ∀ e, (w.bearers e).countP (·.portType = .egress) ≤ 1
  first : ∀ e, ∀ i ∈ w.bearers e, i.portType = .egress →
    ∃ j, (w.bearers e).head? = some j ∧ j.portType = .egress
  numbered : ∀ e i, w.bearers e = [] → w.coverer? e = some i → i.portType ≠ .egress

/-! ## What is listed -/

theorem endpoints_bearers (w : Wiring) (e : Endpoint) :
    w.endpoints.filter (·.1 = e) = (w.bearers e).map (e, ·) := by
  have hothers : ∀ x : String × SwitchWiring, x.1 ≠ e.switch →
      ((x.2.numbered.map fun y => ((⟨x.1, y.1⟩ : Endpoint), y.2)).filter (·.1 = e)) = [] := by
    intro x hx
    rw [List.filter_eq_nil_iff]
    rintro y hy
    obtain ⟨z, -, rfl⟩ := List.mem_map.mp hy
    simp [Endpoint.eq_iff, hx]
  rw [endpoints, List.filter_flatMap]
  refine (Table.flatMap_toList w.switches e.switch hothers).trans ?_
  unfold bearers
  cases w.switches.get? e.switch with
  | none => rfl
  | some s =>
    have hport (y : UInt32 × Interface) :
        decide ((⟨e.switch, y.1⟩ : Endpoint) = e) = decide (y.1 = e.port) := by simp [Endpoint.eq_iff]
    rw [Option.map_some, Option.getD_some, List.filter_map, List.map_map]
    simp only [Function.comp_def, hport]
    refine List.map_congr_left fun y hy => ?_
    obtain ⟨-, hy⟩ := List.mem_filter.mp hy
    simp [of_decide_eq_true hy]

theorem count_egressPorts (w : Wiring) (e : Endpoint) :
    w.egressPorts.count e = (w.bearers e).countP (·.portType = .egress) := by
  have hports : w.egressPorts.count e =
      ((w.endpoints.filter fun x => x.2.portType = .egress).map (·.1)).count e :=
    (List.mergeSort_perm _ _).count_eq e
  have hhere : (w.endpoints.filter (·.1 = e)).countP (·.2.portType = .egress) =
      (w.bearers e).countP (·.portType = .egress) := by
    rw [endpoints_bearers, List.countP_map]
    rfl
  rw [hports, ← hhere, List.count, List.countP_map, List.countP_filter, List.countP_filter]
  refine List.countP_congr fun x _ => ?_
  simp [and_comm]

theorem mem_egressPorts_iff : e ∈ w.egressPorts ↔ ∃ i ∈ w.bearers e, i.portType = .egress := by
  rw [← List.count_pos_iff, count_egressPorts, List.countP_pos_iff]
  simp only [decide_eq_true_eq]

theorem egressPorts_ascending (w : Wiring) : w.egressPorts.Pairwise fun a b => (compare a b).isLE := by
  refine List.pairwise_mergeSort (fun a b c => Std.TransCmp.isLE_trans) (fun a b => ?_) _
  have hswap : compare b a = (compare a b).swap := Std.OrientedCmp.eq_swap
  rw [hswap]
  cases compare a b <;> rfl

/-- An interface with the number of the port goes before any range. -/
theorem portType?_eq (w : Wiring) (e : Endpoint) :
    w.portType? e.switch e.port = ((w.bearers e).head?.or (w.coverer? e)).map (·.portType) := by
  unfold portType? port? bearers coverer?
  cases w.switches.get? e.switch with
  | none => rfl
  | some s =>
    rw [Option.bind_some, Option.bind_some, SwitchWiring.interface?, List.head?_map, List.head?_filter]

theorem lists_egressPorts_iff (w : Wiring) :
    Lists w.egressPorts (fun e => w.portType? e.switch e.port = some .egress) ↔ w.Unequivocal := by
  constructor
  · intro h
    refine ⟨fun e => ?_, fun e i hi hegress => ?_, fun e i hnone hrange hegress => ?_⟩
    · rw [← count_egressPorts, h.count e]
      split <;> omega
    · have htype := (h.mem e).mp (mem_egressPorts_iff.mpr ⟨i, hi, hegress⟩)
      obtain ⟨j, r, hbearers⟩ := List.exists_cons_of_ne_nil (List.ne_nil_of_mem hi)
      rw [portType?_eq, hbearers, List.head?_cons, Option.some_or] at htype
      exact ⟨j, by rw [hbearers, List.head?_cons], Option.some.inj htype⟩
    · -- the range makes it a port for egress, and the list has none without an interface
      have htype : w.portType? e.switch e.port = some .egress := by
        rw [portType?_eq, hnone, hrange, List.head?_nil, Option.none_or, Option.map_some, hegress]
      obtain ⟨j, hj, -⟩ := mem_egressPorts_iff.mp ((h.mem e).mpr htype)
      rw [hnone] at hj
      cases hj
  · intro h
    refine ⟨fun e => ?_, ?_⟩
    · rw [mem_egressPorts_iff, portType?_eq]
      constructor
      · rintro ⟨i, hi, hegress⟩
        obtain ⟨j, hfirst, hj⟩ := h.first e i hi hegress
        rw [hfirst, Option.some_or, Option.map_some, hj]
      · intro htype
        cases hbearers : w.bearers e with
        | cons j r =>
          rw [hbearers, List.head?_cons, Option.some_or] at htype
          exact ⟨j, List.mem_cons_self, Option.some.inj htype⟩
        | nil =>
          rw [hbearers, List.head?_nil, Option.none_or] at htype
          obtain ⟨i, hrange, hegress⟩ := Option.map_eq_some_iff.mp htype
          exact absurd hegress (h.numbered e i hbearers hrange)
    · have hnodup : w.egressPorts.Nodup :=
        List.nodup_iff_count.mpr fun e => by rw [count_egressPorts]; exact h.once e
      refine (w.egressPorts_ascending.and hnodup).imp fun {a b} hab => ?_
      obtain ⟨hle, hne⟩ := hab
      cases hlt : compare a b with
      | lt => rfl
      | eq => exact absurd (Std.LawfulEqOrd.eq_of_compare hlt) hne
      | gt => rw [hlt] at hle; cases hle

/-! ## What becomes of the members -/

/-- A port that never reported is a member, and down, if an interface with its number is for egress. -/
theorem count_downMembers (w : Wiring) (n : Network) (e : Endpoint) :
    (Network.membersOf (n.egressMembers w) .down).count e =
      match n.egress.get? e with
      | some m => if m.health = .down then 1 else 0
      | none => if (w.bearers e).any (·.portType = .egress) then 1 else 0 := by
  have hlists := (Network.lists_membersOf n w .down).congr fun _ => Network.member_iff
  classical
  rw [hlists.count e, Network.get?_egressMembers]
  cases n.egress.get? e with
  | some m => simp
  | none =>
    by_cases hegress : e ∈ w.egressPorts
    · have hany : (w.bearers e).any (·.portType = .egress) = true := by
        simpa using mem_egressPorts_iff.mp hegress
      rw [Option.none_or, if_pos hegress, if_pos ⟨_, rfl, rfl⟩]
      exact (if_pos hany).symm
    · have hany : ¬ (w.bearers e).any (·.portType = .egress) = true := by
        simpa using mt mem_egressPorts_iff.mpr hegress
      rw [Option.none_or, if_neg hegress, if_neg (by simp)]
      exact (if_neg hany).symm

/-- The list of the ports for egress is in order and has a port once for each interface with its number
that is for egress, while the type of the port is told by the first of these interfaces, or without any by
the first range that covers it. It lists just the ports of that type, each once, exactly if at most one
interface of a number is for egress, that one is the first of its number, and no range is for egress where
it counts. Whoever never reported is a member that is down, once, if the list has it at all. -/
theorem egressPorts_exact (w : Wiring) :
    (w.egressPorts.Pairwise fun a b => (compare a b).isLE) ∧
    (∀ e, w.egressPorts.count e = (w.bearers e).countP (·.portType = .egress)) ∧
    (∀ e, w.portType? e.switch e.port = ((w.bearers e).head?.or (w.coverer? e)).map (·.portType)) ∧
    (Lists w.egressPorts (fun e => w.portType? e.switch e.port = some .egress) ↔ w.Unequivocal) ∧
    ∀ (n : Network) (e : Endpoint), (Network.membersOf (n.egressMembers w) .down).count e =
      match n.egress.get? e with
      | some m => if m.health = .down then 1 else 0
      | none => if (w.bearers e).any (·.portType = .egress) then 1 else 0 :=
  ⟨w.egressPorts_ascending, w.count_egressPorts, w.portType?_eq, w.lists_egressPorts_iff, w.count_downMembers⟩

section Small

def uplink (number : Option UInt32) : Interface := ⟨number, none, none, none, some 1, none, none, [], none⟩

/-- Two uplinks with the number 3, a desk and an uplink with the number 4, and uplinks for ports 1 and 2. -/
def muddled : Wiring :=
  let seat : Interface := ⟨some 4, none, some "100", none, none, none, none, [], none⟩
  ⟨.ofList [("sw1", ⟨some 1, none,
    .ofList [(.name "a", uplink (some 3)), (.name "b", uplink (some 3)), (.name "c", seat),
      (.name "d", uplink (some 4))],
    .ofList [("1-2", uplink none)]⟩)]⟩

/-- The ports 1, 2 and 3 are for egress and port 4 is not. Listed is 3, twice, and 4; so port 4 is down as
a member of the egress, and ports 1 and 2 are none. -/
theorem egressPorts_muddled :
    muddled.egressPorts = [⟨"sw1", 3⟩, ⟨"sw1", 3⟩, ⟨"sw1", 4⟩] ∧
      [1, 2, 3, 4].map (muddled.portType? "sw1") =
        [some .egress, some .egress, some .egress, some .access] ∧
      Network.membersOf (Network.empty.egressMembers muddled) .down = [⟨"sw1", 3⟩, ⟨"sw1", 4⟩] ∧
      ¬ Lists muddled.egressPorts fun e => muddled.portType? e.switch e.port = some .egress := by
  have hlisted : muddled.egressPorts = [⟨"sw1", 3⟩, ⟨"sw1", 3⟩, ⟨"sw1", 4⟩] :=
    (List.mergeSort_of_pairwise (by decide +kernel)).trans (by decide +kernel)
  have htypes : [1, 2, 3, 4].map (muddled.portType? "sw1") =
      [some .egress, some .egress, some .egress, some .access] := by decide +kernel
  refine ⟨hlisted, htypes, ?_, fun h => ?_⟩
  · rw [Network.egressMembers, hlisted]
    decide +kernel
  · have hmem := (h.mem ⟨"sw1", 1⟩).mpr (List.cons.inj htypes).1
    rw [hlisted] at hmem
    exact absurd hmem (by decide)

end Small

end Wiring
end Fabric
