import Fabric.Proofs.Replay

/-! What a rebuild has gathered when the last sample is read: the LACP table pairs the last state
and the last role of each member, the root hops and the root are the last ones that are not 0, and
the packet counts are kept in order. -/

namespace Fabric

open Network

theorem lastOf_nil (e : Endpoint) : lastOf [] e = none := rfl

theorem lastOf_cons (x : Endpoint × Int) (l : List (Endpoint × Int)) (e : Endpoint) :
    lastOf (x :: l) e = (lastOf l e).or (if x.1 = e then some x.2 else none) := by
  unfold lastOf
  rw [List.reverse_cons, List.find?_append]
  cases l.reverse.find? (·.1 = e) with
  | some y => rfl
  | none => by_cases h : x.1 = e <;> simp [h]

theorem lastOf_eq_none {l : List (Endpoint × Int)} {e : Endpoint} :
    lastOf l e = none ↔ e ∉ l.map (·.1) := by
  induction l with
  | nil => simp [lastOf_nil]
  | cons x r ih =>
    rw [lastOf_cons, List.map_cons, List.mem_cons, not_or, ← ih]
    by_cases h : x.1 = e
    · simp [h]
    · simp [h, Ne.symm h]

namespace Network

/-- The LACP table as a rebuild gathers it: the last state and the last role of each member. -/
abbrev LacpTable := Table Endpoint (Option LacpState × Option LacpRole)

/-- What is gathered of a member. -/
abbrev LacpHalves := Option LacpState × Option LacpRole

def putState (c : Int) (y : LacpHalves) : LacpHalves := (some (.ofCode c), y.2)

def putRole (c : Int) (y : LacpHalves) : LacpHalves := (y.1, some (.ofCode c))

theorem putState_putState (c d : Int) (y : LacpHalves) : putState c (putState d y) = putState c y := rfl

theorem putRole_putRole (c d : Int) (y : LacpHalves) : putRole c (putRole d y) = putRole c y := rfl

def addCode (put : Int → LacpHalves → LacpHalves) (t : LacpTable) (x : Endpoint × Int) : LacpTable :=
  t.upsert x.1 (none, none) (put x.2)

/-- Of codes that overwrite each other the last one stays. -/
theorem get?_foldl_addCode {put : Int → LacpHalves → LacpHalves}
    (hput : ∀ c d y, put c (put d y) = put c y) (l : List (Endpoint × Int)) (t : LacpTable)
    (e : Endpoint) :
    (l.foldl (addCode put) t).get? e =
      match lastOf l e with
      | some c => some (put c ((t.get? e).getD (none, none)))
      | none => t.get? e := by
  induction l generalizing t with
  | nil => rfl
  | cons x r ih =>
    rw [List.foldl_cons, ih, lastOf_cons, addCode, Table.get?_upsert]
    by_cases h : x.1 = e
    · subst h
      cases lastOf r x.1 <;> simp [hput]
    · cases lastOf r e <;> simp [h, Ne.symm h]

/-- Reports of states and then of roles give each member its last state and its last role. -/
theorem lacpTable_eq (states roles : List (Endpoint × Int)) :
    roles.foldl (addCode putRole) (states.foldl (addCode putState) ∅) =
      (KeySet.ofList ((states ++ roles).map (·.1))).map fun e _ =>
        ((lastOf states e).map .ofCode, (lastOf roles e).map .ofCode) := by
  apply Table.ext_get?
  intro e
  rw [get?_foldl_addCode putRole_putRole, get?_foldl_addCode putState_putState,
    Table.get?_empty, Table.get?_map]
  have hc := KeySet.contains_ofList ((states ++ roles).map (·.1)) e
  rw [List.map_append] at hc ⊢
  simp only [Table.contains, List.mem_append] at hc
  have hs := lastOf_eq_none (l := states) (e := e)
  have hr := lastOf_eq_none (l := roles) (e := e)
  cases hls : lastOf states e <;> cases hlr : lastOf roles e <;>
    cases hk : (KeySet.ofList (states.map (·.1) ++ roles.map (·.1))).get? e <;>
      simp_all [putState, putRole]

theorem toList_map_unit {κ ν : Type} [Ord κ] (s : KeySet κ) (f : κ → Unit → ν) :
    (s.map f).toList = s.keys.map fun k => (k, f k ()) := by
  show s.entries.map _ = (s.entries.map _).map _
  rw [List.map_map]
  rfl

namespace Rebuild

variable (vlanMetric : String) (w : Wiring) (now : Instant)

theorem foldl_take_gathered {α : Type} {f : Family} (read? : Sample → Option α)
    (step : Gathered → α → Gathered)
    (h : ∀ r x, (take w now f r x).gathered = ((read? x).map (step r.gathered)).getD r.gathered)
    (l : List Sample) (r : Rebuild) :
    (l.foldl (take w now f) r).gathered = (l.filterMap read?).foldl step r.gathered := by
  induction l generalizing r with
  | nil => rfl
  | cons x rest ih =>
    rw [List.foldl_cons, ih, h, List.filterMap_cons]
    cases read? x <;> rfl

/-- Does the family go into the network at once? -/
def isLive : Family → Bool
  | .dpStatus | .portStatus | .stackState | .learnedPort | .coldReloads | .warmReloads => true
  | .lacpState | .lacpRole | .rootHop | .stackRoot | .vlanPackets | .eventId => false

theorem reloads_gathered (kind : String) (x : Sample) (r : Rebuild) :
    ((reloads now kind x r).getD r).gathered = r.gathered := by
  unfold reloads
  cases sampleSwitch? x with
  | none => rfl
  | some name =>
    cases count? x.value with
    | none => rfl
    | some n => by_cases hn : n = 0 <;> simp [hn, quietly]

theorem take_gathered {f : Family} (hf : isLive f = true) (r : Rebuild) (x : Sample) :
    (take w now f r x).gathered = r.gathered := by
  cases f with
  | dpStatus =>
    simp only [take, take?]
    cases sampleSwitch? x <;> rfl
  | portStatus =>
    simp only [take, take?]
    cases samplePlace? x <;> rfl
  | stackState =>
    simp only [take, take?]
    cases samplePlace? x with
    | none => rfl
    | some e => cases code? x.value <;> rfl
  | learnedPort =>
    simp only [take, take?]
    cases sampleSwitch? x with
    | none => rfl
    | some name =>
      cases x.label? "eth_src" with
      | none => rfl
      | some mac =>
        cases portNumber? x.value with
        | none => rfl
        | some port => by_cases hp : port = 0 <;> simp [hp]
  | coldReloads => exact reloads_gathered now "cold" x r
  | warmReloads => exact reloads_gathered now "warm" x r
  | lacpState | lacpRole | rootHop | stackRoot | vlanPackets | eventId => cases hf

theorem takeFamily_live {f : Family} (hf : isLive f = true) (s : Snapshot) (r : Rebuild) :
    (takeFamily vlanMetric w now s r f).gathered = r.gathered := by
  unfold takeFamily
  generalize s.samples (f.metric vlanMetric) = l
  induction l generalizing r with
  | nil => rfl
  | cons x rest ih => rw [List.foldl_cons, ih, take_gathered w now hf]

/-- The two LACP families differ in the half that they report. -/
theorem takeFamily_lacp (put : Int → LacpHalves → LacpHalves) (f : Family)
    (h : ∀ x r, take? w now f x r = (do
      let e ← samplePlace? x
      let code ← code? x.value
      some (r.gather fun g => { g with lacp := g.lacp.upsert e (none, none) (put code) })))
    (s : Snapshot) (r : Rebuild) :
    (takeFamily vlanMetric w now s r f).gathered =
      { r.gathered with lacp := (s.codes vlanMetric f).foldl (addCode put) r.gathered.lacp } := by
  refine (foldl_take_gathered w now sampleCode? (fun g x => { g with lacp := addCode put g.lacp x }) ?_ _ r).trans
    (List.foldl_hom (fun t => ({ r.gathered with lacp := t } : Gathered)) fun _ _ => rfl)
  intro r x
  rw [take, h, sampleCode?]
  cases samplePlace? x with
  | none => rfl
  | some e => cases code? x.value <;> rfl

theorem takeFamily_rootHop (s : Snapshot) (r : Rebuild) :
    (takeFamily vlanMetric w now s r .rootHop).gathered =
      { r.gathered with
        rootHops := (s.rootHops vlanMetric).foldl (fun t x => t.insert x.1 x.2) r.gathered.rootHops } := by
  refine (foldl_take_gathered w now sampleHop?
    (fun g x => { g with rootHops := if decide (x.2 ≠ 0) then g.rootHops.insert x.1 x.2 else g.rootHops })
    ?_ _ r).trans ?_
  · intro r x
    simp only [take, take?, sampleHop?]
    cases sampleSwitch? x with
    | none => rfl
    | some name =>
      cases portNumber? x.value with
      | none => rfl
      | some port => by_cases hp : port = 0 <;> simp [hp]
  · rw [Snapshot.rootHops, List.foldl_filter]
    exact List.foldl_hom (fun t => ({ r.gathered with rootHops := t } : Gathered)) fun _ _ => rfl

theorem takeFamily_stackRoot (s : Snapshot) (r : Rebuild) :
    (takeFamily vlanMetric w now s r .stackRoot).gathered =
      { r.gathered with rootId := (s.rootId vlanMetric).or r.gathered.rootId } := by
  refine (foldl_take_gathered w now (count? ·.value)
    (fun g id => { g with rootId := if decide (id ≠ 0) then some id else g.rootId }) ?_ _ r).trans ?_
  · intro r x
    simp only [take, take?]
    cases count? x.value with
    | none => rfl
    | some id => by_cases hi : id = 0 <;> simp [hi]
  · rw [Snapshot.rootId]
    generalize (s.samples (Family.stackRoot.metric vlanMetric)).filterMap (count? ·.value) = l
    generalize r.gathered = g
    induction l generalizing g with
    | nil => rfl
    | cons id rest ih =>
      rw [List.foldl_cons, ih]
      by_cases hi : id = 0
      · simp [hi]
      · simp only [hi, ne_eq, not_false_eq_true, decide_true, List.filter_cons_of_pos, if_true,
          List.getLast?_cons]
        cases (rest.filter fun x => !decide (x = 0)).getLast? <;> simp

theorem takeFamily_vlanPackets (s : Snapshot) (r : Rebuild) :
    (takeFamily vlanMetric w now s r .vlanPackets).gathered =
      { r.gathered with vlanSamples := r.gathered.vlanSamples ++ s.samples vlanMetric } := by
  refine (foldl_take_gathered w now some
    (fun g x => { g with vlanSamples := g.vlanSamples ++ [x] }) (fun _ _ => rfl) _ r).trans ?_
  rw [List.filterMap_some]
  generalize r.gathered = g
  show (s.samples vlanMetric).foldl _ g = _
  generalize s.samples vlanMetric = l
  induction l generalizing g with
  | nil => simp
  | cons x rest ih => rw [List.foldl_cons, ih]; simp

/-- The greatest of the event numbers so far. -/
def laterEvent (m : Option UInt64) (id : UInt64) : Option UInt64 := some (max id (m.getD id))

theorem takeFamily_eventId (s : Snapshot) (r : Rebuild) :
    (takeFamily vlanMetric w now s r .eventId).gathered =
      { r.gathered with
        lastEvent := ((s.samples "faucet_event_id").filterMap (count? ·.value)).foldl laterEvent
          r.gathered.lastEvent } := by
  refine (foldl_take_gathered w now (count? ·.value)
    (fun g id => { g with lastEvent := laterEvent g.lastEvent id }) ?_ _ r).trans
    (List.foldl_hom (fun t => ({ r.gathered with lastEvent := t } : Gathered)) fun _ _ => rfl)
  intro r x
  simp only [take, take?]
  cases count? x.value <;> rfl

/-- Everything that is gathered, by what it says of the snapshot. -/
theorem rebuild_gathered (s : Snapshot) :
    (Family.all.foldl (takeFamily vlanMetric w now s) start).gathered =
      { lacp := (s.lacpMembers vlanMetric).map fun e _ =>
          ((lastOf (s.codes vlanMetric .lacpState) e).map .ofCode,
            (lastOf (s.codes vlanMetric .lacpRole) e).map .ofCode)
        rootId := s.rootId vlanMetric
        rootHops := .ofList (s.rootHops vlanMetric)
        vlanSamples := s.samples vlanMetric
        lastEvent := ((s.samples "faucet_event_id").filterMap (count? ·.value)).foldl laterEvent none } := by
  have live (f : Family) (hf : isLive f = true) := takeFamily_live vlanMetric w now hf s
  simp only [Family.all, List.foldl_cons, List.foldl_nil, takeFamily_eventId,
    takeFamily_vlanPackets, takeFamily_stackRoot, takeFamily_rootHop, live .dpStatus rfl,
    live .portStatus rfl, live .stackState rfl, live .learnedPort rfl, live .coldReloads rfl,
    live .warmReloads rfl, takeFamily_lacp vlanMetric w now putRole .lacpRole (fun _ _ => rfl),
    takeFamily_lacp vlanMetric w now putState .lacpState (fun _ _ => rfl)]
  simp only [start, lacpTable_eq, Option.or_none, List.nil_append]
  rfl

theorem foldl_laterEvent_isSome {ids : List UInt64} (h : ids ≠ []) (m : Option UInt64) :
    (ids.foldl laterEvent m).isSome = true := by
  induction ids generalizing m with
  | nil => exact absurd rfl h
  | cons id r ih =>
    cases r with
    | nil => rfl
    | cons id' r' => exact ih (by simp) (laterEvent m id)

end Rebuild
end Network
end Fabric
