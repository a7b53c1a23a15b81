import Fabric.Proofs.Written
import Fabric.Proofs.Widening
import Fabric.Proofs.Tables
import Fabric.Event.Json

/-! What is written is read back. `Faithful` says of a writer and a reader all that a record needs to know of
what stands in its members: that the one undoes the other, that what is written can stand in a text, and that
more members than were written change nothing. Lists, tables and records are faithful if what is in them is;
the members of a record are read one after the other, each found under its name among those that are
present. -/

namespace Fabric

open Fabric.Text

namespace Json

/-! ## What is written and read -/

/-- What is written of the values that fit is read back and can stand in a text, and more members than were
written do not matter. -/
structure Faithful {α : Type} (fits : α → Prop) (s : Shape) (write : α → Json) (read : Json → Option α) :
    Prop where
  back : ∀ a, fits a → read (write a) = some a
  blind : Blind s read
  writable : ∀ a, fits a → Writable (write a)
  present : ∀ a, fits a → Source.absent? (write a) = some false

/-- An integer of 64 bits. -/
def Signed64 (i : Int) : Prop := -(maxI64 + 1 : Int) ≤ i ∧ i ≤ maxI64

/-- Nothing is asked of a value. -/
def Any {α : Type} (_ : α) : Prop := True

theorem mapM_back {α β : Type} {write : α → β} {read : β → Option α} {l : List α}
    (h : ∀ a ∈ l, read (write a) = some a) : (l.map write).mapM read = some l := by
  induction l with
  | nil => rfl
  | cons a r ih =>
    obtain ⟨ha, hr⟩ := List.forall_mem_cons.mp h
    rw [List.map_cons, List.mapM_cons, ha, ih hr]
    rfl

namespace Faithful

variable {α : Type} {fits : α → Prop} {s : Shape} {write : α → Json} {read : Json → Option α}

theorem text : Faithful Any .plain Json.ofText Json.text? where
  back a _ := denoted?_literalOf a
  blind := .plain _
  writable a _ := .text a
  present _ _ := rfl

theorem truth : Faithful Any .plain Json.truth Json.truth? where
  back _ _ := rfl
  blind := .plain _
  writable a _ := .truth a
  present _ _ := rfl

theorem natural {limit : Nat} (hlimit : limit ≤ maxU64) :
    Faithful (· ≤ limit) .plain Json.ofNat (natural? limit) where
  back _ h := if_pos h
  blind := .plain _
  writable _ h := .number (reproduced_natural (Nat.le_trans h hlimit))
  present _ _ := rfl

theorem map {β : Type} (h : Faithful fits s write read) {f : β → α} {g : α → β} (back : ∀ b, g (f b) = b)
    (hfits : ∀ b, fits (f b)) : Faithful Any s (fun b => write (f b)) fun j => (read j).map g where
  back b _ := by rw [h.back _ (hfits b), Option.map_some, back]
  blind j j' hw := congrArg (Option.map g) (h.blind j j' hw)
  writable b _ := h.writable _ (hfits b)
  present b _ := h.present _ (hfits b)

theorem u16 : Faithful Any .plain (fun n : UInt16 => Json.ofNat n.toNat) Json.u16? :=
  (natural (by decide)).map (fun _ => UInt16.ofNat_toNat) fun n => Nat.le_of_lt_succ n.toNat_lt

theorem u32 : Faithful Any .plain (fun n : UInt32 => Json.ofNat n.toNat) Json.u32? :=
  (natural (by decide)).map (fun _ => UInt32.ofNat_toNat) fun n => Nat.le_of_lt_succ n.toNat_lt

theorem u64 : Faithful Any .plain (fun n : UInt64 => Json.ofNat n.toNat) Json.u64? :=
  (natural (Nat.le_refl _)).map (fun _ => UInt64.ofNat_toNat) fun n => Nat.le_of_lt_succ n.toNat_lt

theorem integer : Faithful Signed64 .plain Json.ofInt Json.integer? where
  back i h := by
    obtain ⟨hlow, hhigh⟩ := h
    cases i with
    | ofNat n =>
      have hle : n ≤ maxI64 := by simpa using hhigh
      simp [Json.ofInt, integer?, hle]
    | negSucc n =>
      have hle : n + 1 ≤ maxI64 + 1 := by omega
      simp [Json.ofInt, integer?, hle, Int.negSucc_eq]
  blind := .plain _
  writable i h := by
    obtain ⟨hlow, hhigh⟩ := h
    cases i with
    | ofNat n => exact .number (reproduced_natural (Nat.le_trans (by simpa using hhigh) (by decide)))
    | negSucc n => exact .number (reproduced_negative (Nat.succ_pos n) (by omega))
  present i _ := by cases i <;> rfl

/-- A float that is written so that it reads back is finite. -/
theorem isFinite_of_reproduced {x : Float} (h : Reproduced (.float x)) : Decimal.isFinite x = true := by
  cases hx : Decimal.isFinite x with
  | true => rfl
  | false =>
    have htext : (JsonNumber.render (.float x)).toList = ['n', 'u', 'l', 'l'] := by
      simp [JsonNumber.render, hx]
    have hnone : numeral? ['n', 'u', 'l', 'l'] = none := rfl
    rw [Reproduced, htext, hnone] at h
    cases h

theorem float : Faithful (fun x => Reproduced (.float x)) .plain Json.ofFloat Json.float? where
  back x h := by
    have hfinite := isFinite_of_reproduced h
    rw [Json.ofFloat, if_pos hfinite]
    exact if_pos hfinite
  blind := .plain _
  writable x h := by
    rw [Json.ofFloat, if_pos (isFinite_of_reproduced h)]
    exact .number h
  present x h := by
    rw [Json.ofFloat, if_pos (isFinite_of_reproduced h)]
    rfl

theorem list (h : Faithful fits s write read) :
    Faithful (fun l => ∀ a ∈ l, fits a) (.items s) (fun l => .list (l.map write)) (Json.items? read) where
  back _ hl := mapM_back fun a ha => h.back a (hl a ha)
  blind := .items h.blind
  writable _ hl := .list (List.forall_mem_map.mpr fun a ha => h.writable a (hl a ha))
  present _ _ := rfl

/-- Entries are written in the order of their keys and come back in it. -/
theorem table {κ : Type} [Ord κ] [Std.TransOrd κ] [Std.LawfulEqOrd κ] [DecidableEq κ] {key : κ → String}
    {keyRead : List UInt8 → Option κ} (hkey : ∀ k, keyRead (literalOf (key k)) = some k)
    (h : Faithful Any s write read) :
    Faithful Any (.table s) (fun t : Table κ α => .ofMembers (t.toList.map fun (k, v) => (key k, write v)))
      (Json.table? keyRead read) where
  back t _ := by
    unfold Json.table? ofMembers
    dsimp only
    rw [List.map_map, mapM_back, Option.map_some, Table.ofList_toList]
    rintro ⟨k, v⟩ -
    simp [hkey, h.back v trivial]
  blind := .table keyRead h.blind
  writable t _ := by
    refine .record ?_ ?_
    · simp only [List.map_map, List.forall_mem_map]
      exact fun e _ => ⟨key e.1, rfl⟩
    · simp only [List.map_map, List.forall_mem_map]
      exact fun e _ => h.writable e.2 trivial
  present _ _ := rfl

end Faithful

/-! ## Records -/

/-- The members of a record that are present. -/
def present (ms : List (String × Option Json)) : List (String × Json) := ms.filterMap fun (k, v) => v.map (k, ·)

theorem record?_ofPresent (names : List String) (ms : List (String × Option Json)) :
    record? names (.ofPresent ms) = some (present ms) := by
  refine mapM_back ?_
  rintro ⟨k, v⟩ -
  simp [denoted?_literalOf]

theorem filter_present_of_notMem {ms : List (String × Option Json)} {k : String} (h : k ∉ ms.map Prod.fst) :
    (present ms).filter (·.1 = k) = [] := by
  refine List.filter_eq_nil_iff.mpr fun e he => ?_
  obtain ⟨⟨k', o⟩, hmem, ho⟩ := List.mem_filterMap.mp he
  obtain ⟨v, -, rfl⟩ := Option.map_eq_some_iff.mp ho
  have hne : k' ≠ k := by
    rintro rfl
    exact h (List.mem_map_of_mem (f := Prod.fst) hmem)
  simpa using hne

theorem member?_present {ms : List (String × Option Json)} (nodup : (ms.map Prod.fst).Nodup) {k : String}
    {v : Option Json} (h : ms.lookup k = some v) : Source.member? (present ms) k = some v := by
  have hfilter : (present ms).filter (·.1 = k) = (v.map (k, ·)).toList := by
    induction ms with
    | nil => cases h
    | cons e ms ih =>
      obtain ⟨k', o⟩ := e
      obtain ⟨hfirst, hrest⟩ := List.nodup_cons.mp nodup
      have hsplit : present ((k', o) :: ms) = (o.map (k', ·)).toList ++ present ms := by
        cases o <;> rfl
      rw [hsplit, List.filter_append]
      by_cases hk : k = k'
      · subst hk
        obtain rfl : o = v := by simpa using h
        rw [filter_present_of_notMem hfirst]
        cases o <;> simp
      · rw [List.lookup_cons, beq_false_of_ne hk] at h
        rw [ih hrest h]
        cases o <;> simp [Ne.symm hk]
  rw [Source.member?, hfilter]
  cases v <;> rfl

section Members
variable {α β : Type} {fits : α → Prop} {s : Shape} {write : α → Json} {read : Json → Option α}
  {ms : List (String × Option Json)} {k : String} {d : α} {g : α → Option β} {b : β}

theorem read_record {names : List String} {g : List (String × Json) → Option β} (hg : g (present ms) = some b) :
    (record? names (.ofPresent ms)).bind g = some b := by
  rw [record?_ofPresent, Option.bind_some, hg]

theorem read_required (h : Faithful fits s write read) (nodup : (ms.map Prod.fst).Nodup) {a : α} (ha : fits a)
    (i : Nat) (hk : ms[i]? = some (k, some (write a))) (hg : g a = some b) :
    (Source.required (present ms) k read).bind g = some b := by
  rw [Source.required, member?_present nodup (lookup_of_getElem? nodup hk)]
  dsimp only
  rw [h.back a ha, Option.bind_some, hg]

theorem read_defaulted (h : Faithful fits s write read) (nodup : (ms.map Prod.fst).Nodup) {a : α} (ha : fits a)
    (i : Nat) (hk : ms[i]? = some (k, some (write a))) (hg : g a = some b) :
    (Source.defaulted (present ms) k d read).bind g = some b := by
  rw [Source.defaulted, member?_present nodup (lookup_of_getElem? nodup hk)]
  dsimp only
  rw [h.back a ha, Option.bind_some, hg]

theorem read_optional {g : Option α → Option β} (h : Faithful fits s write read) (nodup : (ms.map Prod.fst).Nodup)
    {o : Option α} (ho : ∀ a ∈ o, fits a) (i : Nat) (hk : ms[i]? = some (k, o.map write)) (hg : g o = some b) :
    (Source.optional (present ms) k read).bind g = some b := by
  rw [Source.optional, Source.defaulted, member?_present nodup (lookup_of_getElem? nodup hk)]
  cases o with
  | none => exact hg
  | some a =>
    dsimp only [Option.map_some]
    rw [h.present a (ho a rfl)]
    dsimp only
    rw [h.back a (ho a rfl)]
    exact hg

end Members

theorem writable_ofPresent {ms : List (String × Option Json)} (h : ∀ e ∈ ms, ∀ v ∈ e.2, Writable v) :
    Writable (.ofPresent ms) := by
  refine .record ?_ ?_
  · exact List.forall_mem_map.mpr fun e _ => ⟨e.1, rfl⟩
  · refine List.forall_mem_map.mpr fun e he => ?_
    obtain ⟨⟨k, o⟩, hmem, ho⟩ := List.mem_filterMap.mp he
    obtain ⟨v, hv, rfl⟩ := Option.map_eq_some_iff.mp ho
    exact h _ hmem v hv

section Writable
variable {α : Type} {fits : α → Prop} {s : Shape} {write : α → Json} {read : Json → Option α}

theorem Faithful.writable_some (h : Faithful fits s write read) {a : α} (ha : fits a) :
    ∀ v ∈ some (write a), Writable v := by
  rintro v ⟨⟩
  exact h.writable a ha

theorem Faithful.writable_map (h : Faithful fits s write read) {o : Option α} (ho : ∀ a ∈ o, fits a) :
    ∀ v ∈ o.map write, Writable v := by
  intro v hv
  obtain ⟨a, ha, rfl⟩ := Option.map_eq_some_iff.mp hv
  exact h.writable a (ho a ha)

end Writable

/-! ## Numbers as keys -/

/-- Digits need no escapes. -/
theorem map_charOf_literalOf {l : List Char} (h : ∀ c ∈ l, c.isDigit = true) :
    (literalOf (String.ofList l)).map charOf = l := by
  have hescape : l.flatMap escape = l := by
    induction l with
    | nil => rfl
    | cons c r ih =>
      obtain ⟨hc, hr⟩ := List.forall_mem_cons.mp h
      have hplain : escape c = [c] := by
        have hrange := isDigit_iff.mp hc
        have hnone : shortEscape? c = none := by
          unfold shortEscape?
          split <;> first | rfl | cases hc
        rw [escape, hnone]
        exact if_neg (by omega)
      rw [List.flatMap_cons, hplain, ih hr, List.singleton_append]
  rw [literalOf, String.toList_ofList, hescape, Utf8.encode, String.toList_ofList]
  refine map_charOf_encode fun c hc => ?_
  have hrange := isDigit_iff.mp (h c hc)
  omega

theorem u32Key?_numeral (p : UInt32) : u32Key? (literalOf (numeral p.toNat)) = some p := by
  have hdigits := (digits?_eq_some.mp (digits?_numeralIn p.toNat)).2.1
  have hle : p.toNat ≤ maxU32 := Nat.le_of_lt_succ p.toNat_lt
  have hread : numeral? ((literalOf (numeral p.toNat)).map fun b => Char.ofNat b.toNat) =
      some ⟨false, numeralIn 10 p.toNat, none, none⟩ :=
    (congrArg numeral? (map_charOf_literalOf hdigits)).trans (numeral?_numeralIn p.toNat)
  unfold u32Key?
  rw [hread]
  dsimp only
  rw [value_numeralIn (Nat.le_trans hle (by decide))]
  dsimp only
  rw [if_pos hle]
  simp

end Json
end Fabric
