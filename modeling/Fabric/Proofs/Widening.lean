import Mathlib.Data.List.Forall2
import Fabric.Source

/-! Members that nobody asks for. A `Shape` says where a value has records of fixed members, and a widened value
has more members there, any and anywhere, but none of the names that are known. Who looks for known members
finds the same ones in the wider record, so whatever is read member by member is blind to the others. -/

namespace Fabric.Json

open Fabric (Source)
open Fabric.Source (member? required defaulted optional absent?)

/-- Where a value has records of fixed members, with what is known of each. -/
inductive Shape where
  | plain
  | items (item : Shape)
  /-- Records with arbitrary keys. -/
  | table (entry : Shape)
  | members (known : List (String × Shape))

mutual

/-- The value with more members in its records: any members, anywhere, of names that are not known there. -/
inductive Widened : Shape → Json → Json → Prop where
  | same (s : Shape) (j : Json) : Widened s j j
  | items {s : Shape} {l l' : List Json} (each : WidenedItems s l l') : Widened (.items s) (.list l) (.list l')
  | table {s : Shape} {ms ms' : List (List UInt8 × Json)} (each : WidenedEntries s ms ms') :
      Widened (.table s) (.record ms) (.record ms')
  | members {known : List (String × Shape)} {ms ms' : List (List UInt8 × Json)}
      (each : WidenedMembers known ms ms') : Widened (.members known) (.record ms) (.record ms')

inductive WidenedItems : Shape → List Json → List Json → Prop where
  | nil {s : Shape} : WidenedItems s [] []
  | cons {s : Shape} {v v' : Json} {l l' : List Json} (head : Widened s v v') (tail : WidenedItems s l l') :
      WidenedItems s (v :: l) (v' :: l')

inductive WidenedEntries : Shape → List (List UInt8 × Json) → List (List UInt8 × Json) → Prop where
  | nil {s : Shape} : WidenedEntries s [] []
  | cons {s : Shape} {k : List UInt8} {v v' : Json} {ms ms' : List (List UInt8 × Json)} (head : Widened s v v')
      (tail : WidenedEntries s ms ms') : WidenedEntries s ((k, v) :: ms) ((k, v') :: ms')

inductive WidenedMembers :
    List (String × Shape) → List (List UInt8 × Json) → List (List UInt8 × Json) → Prop where
  | nil {known : List (String × Shape)} : WidenedMembers known [] []
  | kept {known : List (String × Shape)} {s : Shape} {k : List UInt8} {name : String} {v v' : Json}
      {ms ms' : List (List UInt8 × Json)} (denotes : denoted? k = some name) (shape : known.lookup name = some s)
      (head : Widened s v v') (tail : WidenedMembers known ms ms') :
      WidenedMembers known ((k, v) :: ms) ((k, v') :: ms')
  | added {known : List (String × Shape)} {k : List UInt8} {name : String} {x : Json}
      {ms ms' : List (List UInt8 × Json)} (denotes : denoted? k = some name) (unknown : known.lookup name = none)
      (tail : WidenedMembers known ms ms') : WidenedMembers known ms ((k, x) :: ms')

end

/-- What is read does not depend on members of unknown names. -/
def Blind {α : Type} (s : Shape) (read : Json → Option α) : Prop :=
  ∀ j j', Widened s j j' → read j' = read j

variable {α κ : Type} {s : Shape} {read : Json → Option α}

theorem Blind.plain (read : Json → Option α) : Blind .plain read := by
  intro j j' h
  cases h
  rfl

theorem Blind.items (hread : Blind s read) : Blind (.items s) (items? read) := by
  intro j j' h
  cases h with
  | same => rfl
  | @items _ l l' each =>
    show l'.mapM read = l.mapM read
    induction l generalizing l' with
    | nil => cases each; rfl
    | cons v l ih =>
      cases each with
      | cons head tail => rw [List.mapM_cons, List.mapM_cons, hread _ _ head, ih tail]

theorem Blind.table [Ord κ] [Std.TransOrd κ] [Std.LawfulEqOrd κ] (key : List UInt8 → Option κ)
    (hread : Blind s read) : Blind (.table s) (table? key read) := by
  intro j j' h
  cases h with
  | same => rfl
  | @table _ ms ms' each =>
    refine congrArg (Option.map Table.ofList) ?_
    induction ms generalizing ms' with
    | nil => cases each; rfl
    | cons e ms ih =>
      cases each with
      | cons head tail =>
        rw [List.mapM_cons, List.mapM_cons, ih tail]
        dsimp only
        rw [hread _ _ head]

/-! ## Members -/

theorem lookup_of_getElem? {l : List (String × α)} (nodup : (l.map Prod.fst).Nodup) {i : Nat} {k : String} {a : α}
    (h : l[i]? = some (k, a)) : l.lookup k = some a := by
  induction l generalizing i with
  | nil => cases h
  | cons e l ih =>
    obtain ⟨hfirst, hrest⟩ := List.nodup_cons.mp nodup
    cases i with
    | zero =>
      cases h
      simp
    | succ i =>
      have hlater : l[i]? = some (k, a) := h
      have hmem : k ∈ l.map Prod.fst := List.mem_map_of_mem (f := Prod.fst) (List.mem_of_getElem? hlater)
      have hne : k ≠ e.1 := by
        rintro rfl
        exact hfirst hmem
      rw [List.lookup_cons, beq_false_of_ne hne]
      exact ih hrest h

/-- The members read of a record and of the same record with more members. -/
inductive Padded (known : List (String × Shape)) : List (String × Json) → List (String × Json) → Prop where
  | nil : Padded known [] []
  | kept {s : Shape} {name : String} {v v' : Json} {r r' : List (String × Json)}
      (shape : known.lookup name = some s) (head : Widened s v v') (tail : Padded known r r') :
      Padded known ((name, v) :: r) ((name, v') :: r')
  | added {name : String} {x : Json} {r r' : List (String × Json)} (unknown : known.lookup name = none)
      (tail : Padded known r r') : Padded known r ((name, x) :: r')

theorem record?_cons {k : List UInt8} {name : String} (denotes : denoted? k = some name) (names : List String)
    (v : Json) (ms : List (List UInt8 × Json)) :
    record? names (.record ((k, v) :: ms)) = (record? names (.record ms)).map ((name, v) :: ·) := by
  unfold record?
  dsimp only
  rw [List.mapM_cons, denotes, Option.map_some]
  exact Option.map_eq_bind.symm

theorem record?_widened {known : List (String × Shape)} {ms ms' : List (List UInt8 × Json)}
    (h : WidenedMembers known ms ms') (names : List String) :
    ∃ r r', record? names (.record ms) = some r ∧ record? names (.record ms') = some r' ∧ Padded known r r' := by
  induction ms' generalizing ms with
  | nil =>
    cases h
    exact ⟨[], [], rfl, rfl, .nil⟩
  | cons e ms' ih =>
    cases h with
    | kept denotes shape head tail =>
      obtain ⟨r, r', hr, hr', hpadded⟩ := ih tail
      rw [record?_cons denotes, record?_cons denotes, hr, hr']
      exact ⟨_, _, rfl, rfl, .kept shape head hpadded⟩
    | added denotes unknown tail =>
      obtain ⟨r, r', hr, hr', hpadded⟩ := ih tail
      rw [record?_cons denotes, hr']
      exact ⟨r, _, hr, rfl, .added unknown hpadded⟩

variable {known : List (String × Shape)} {r r' : List (String × Json)}

theorem Blind.record {read : List (String × Json) → Option α} (names : List String)
    (h : ∀ r r', Padded known r r' → read r' = read r) :
    Blind (.members known) fun j => (j.record? names).bind read := by
  intro j j' hw
  cases hw with
  | same => rfl
  | members each =>
    obtain ⟨r, r', hr, hr', hpadded⟩ := record?_widened each names
    dsimp only
    rw [hr, hr', Option.bind_some, Option.bind_some, h r r' hpadded]

namespace Padded

theorem filter (h : Padded known r r') {name : String} (shape : known.lookup name = some s) :
    List.Forall₂ (fun e e' => Widened s e.2 e'.2) (r.filter (·.1 = name)) (r'.filter (·.1 = name)) := by
  induction h with
  | nil => exact .nil
  | @kept s' other v v' r r' hshape head _ ih =>
    by_cases hname : other = name
    · subst hname
      rw [shape] at hshape
      cases hshape
      simpa using ⟨head, ih⟩
    · simpa [hname] using ih
  | @added other x r r' unknown _ ih =>
    have hname : other ≠ name := by
      rintro rfl
      rw [shape] at unknown
      cases unknown
    simpa [hname] using ih

/-- Both records have the member, the one in the wider record perhaps wider, or neither has it. -/
theorem member?_cases (h : Padded known r r') (nodup : (known.map Prod.fst).Nodup) {i : Nat} {name : String}
    (hi : known[i]? = some (name, s)) :
    (∃ v v', member? r name = some (some v) ∧ member? r' name = some (some v') ∧ Widened s v v') ∨
      member? r' name = member? r name := by
  have hfilter := h.filter (lookup_of_getElem? nodup hi)
  unfold member?
  generalize r.filter (·.1 = name) = l at hfilter
  generalize r'.filter (·.1 = name) = l' at hfilter
  cases hfilter with
  | nil => exact .inr rfl
  | @cons e e' l l' head tail =>
    cases tail with
    | nil => exact .inl ⟨e.2, e'.2, rfl, rfl, head⟩
    | cons => exact .inr rfl

theorem required (h : Padded known r r') (nodup : (known.map Prod.fst).Nodup) (i : Nat) {name : String}
    (hi : known[i]? = some (name, s)) (hread : Blind s read) :
    Source.required r' name read = Source.required r name read := by
  unfold Source.required
  rcases h.member?_cases nodup hi with ⟨v, v', hv, hv', hw⟩ | heq
  · rw [hv, hv']
    exact hread v v' hw
  · rw [heq]

theorem defaulted (h : Padded known r r') (nodup : (known.map Prod.fst).Nodup) (i : Nat) {name : String}
    (hi : known[i]? = some (name, s)) (d : α) (hread : Blind s read) :
    Source.defaulted r' name d read = Source.defaulted r name d read := by
  unfold Source.defaulted
  rcases h.member?_cases nodup hi with ⟨v, v', hv, hv', hw⟩ | heq
  · rw [hv, hv']
    exact hread v v' hw
  · rw [heq]

theorem optional (h : Padded known r r') (nodup : (known.map Prod.fst).Nodup) (i : Nat) {name : String}
    (hi : known[i]? = some (name, s)) (hread : Blind s read) :
    Source.optional r' name read = Source.optional r name read := by
  refine h.defaulted nodup i hi none fun j j' hw => ?_
  have habsent : absent? j' = absent? j := by cases hw <;> rfl
  rw [habsent, hread j j' hw]

end Padded

end Fabric.Json
