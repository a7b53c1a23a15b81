import Mathlib.Data.List.Count
import Fabric.Proofs.Labels
import Fabric.Proofs.Tables
import Fabric.Wiring

/-! Lists of ports such as `1-10,12`. Nobody ever builds the set that such a list stands for; it is asked
of one port after the other. What the list means is said here of its items, each with the blanks that may
stand in it (`PortList.Item`), and a port is in the list when an item covers it (`rangeCovers_text`).
Every text is a list of items (`exists_items`), for an item that cannot be read is one too, and says
nothing. So a port is what the first interface with its number says, and without one what the first list
says that has it (`port?_eq_some`). -/

namespace Fabric

open Fabric.Text

namespace PortList

/-- The text is this number, with blanks around it or none. -/
def Gives (l : List Char) (n : UInt32) : Prop :=
  ∃ front w back, l = front ++ w ++ back ∧ (∀ c ∈ front, isBlank c = true) ∧ Writes w n.toNat ∧
    ∀ c ∈ back, isBlank c = true

/-- A port number as it may be written. -/
structure Number where
  text : List Char
  value : UInt32
  gives : Gives text value

/-- An item that says nothing: there is nothing in it, or two dashes, or no number where one belongs. -/
inductive Unread : List Char → Prop where
  | blank {l : List Char} : (∀ c ∈ l, isBlank c = true) → Unread l
  | dashes {l : List Char} : 2 ≤ l.count '-' → Unread l
  | number {l : List Char} : '-' ∉ l → (∀ n, ¬ Gives l n) → Unread l
  | bound {a b : List Char} : '-' ∉ a → (∀ m, ¬ Gives a m) ∨ (∀ n, ¬ Gives b n) → Unread (a ++ '-' :: b)

inductive Item where
  | port (n : Number)
  | range (first last : Number)
  | unread (text : List Char) (single : ',' ∉ text) (h : Unread text)

namespace Item

def text : Item → List Char
  | port n => n.text
  | range a b => a.text ++ '-' :: b.text
  | unread l _ _ => l

/-- Both ends of a range are in it; a range that goes down has nothing in it. -/
def Covers : Item → UInt32 → Prop
  | port n, p => p = n.value
  | range a b, p => a.value ≤ p ∧ p ≤ b.value
  | unread .., _ => False

end Item

def text (items : List Item) : String := String.ofList ([','].intercalate (items.map Item.text))

/-- The text is a list that has the port. -/
def Covered (spec : String) (p : UInt32) : Prop := ∃ items, text items = spec ∧ ∃ i ∈ items, i.Covers p

/-! ## Numbers -/

theorem gives_iff {l : List Char} {n : UInt32} : Gives l n ↔ u32? (trim l) = some n := by
  rw [u32?_eq_some]
  constructor
  · rintro ⟨front, w, back, rfl, hfront, hw, hback⟩
    rwa [trim_blanks hfront hback, trim_clean hw.clean]
  · intro hw
    obtain ⟨front, back, hl, hfront, hback⟩ := exists_trim l
    exact ⟨front, trim l, back, hl, hfront, hw, hback⟩

theorem Gives.unique {l : List Char} {m n : UInt32} (hm : Gives l m) (hn : Gives l n) : m = n :=
  Option.some.inj ((gives_iff.mp hm).symm.trans (gives_iff.mp hn))

/-- Blanks, digits and a plus sign are all that there is in a number. -/
theorem Gives.notMem {l : List Char} {n : UInt32} (h : Gives l n) {c : Char} (blank : isBlank c = false)
    (digit : c.isDigit = false) (plus : c ≠ '+') : c ∉ l := by
  obtain ⟨front, w, back, rfl, hfront, ⟨sign, ds, rfl, hsign, -, hds, -⟩, hback⟩ := h
  intro hc
  rw [List.mem_append, List.mem_append, List.mem_append] at hc
  rcases hc with (hc | hc | hc) | hc
  · rw [hfront c hc] at blank
    cases blank
  · rcases hsign with rfl | rfl
    · cases hc
    · exact plus (List.mem_singleton.mp hc)
  · rw [hds c hc] at digit
    cases digit
  · rw [hback c hc] at blank
    cases blank

theorem Gives.dashless {l : List Char} {n : UInt32} (h : Gives l n) : '-' ∉ l :=
  h.notMem (by decide) (by decide) (by decide)

theorem Gives.commaless {l : List Char} {n : UInt32} (h : Gives l n) : ',' ∉ l :=
  h.notMem (by decide) (by decide) (by decide)

/-- A number is not blank. -/
theorem not_gives_blank {l : List Char} (h : ∀ c ∈ l, isBlank c = true) (n : UInt32) : ¬ Gives l n := by
  rintro ⟨front, w, back, rfl, -, hw, -⟩
  obtain ⟨c, r, rfl⟩ := List.exists_cons_of_ne_nil hw.filled
  have hblank : isBlank c = true := h c (by simp)
  rw [hw.clean c List.mem_cons_self] at hblank
  cases hblank

/-! ## Items -/

section Items
variable {p : UInt32} {l a b : List Char}

theorem itemCovers_dashless (h : '-' ∉ l) : itemCovers p l = true ↔ Gives l p := by
  have htrim : '-' ∉ trim l := by
    obtain ⟨front, back, hl, -, -⟩ := exists_trim l
    intro hmem
    rw [hl] at h
    exact h (by simp [hmem])
  rw [itemCovers, cut?_clean (beq_sep htrim), gives_iff, decide_eq_true_eq]

/-- An item with a dash in it is cut at the first one. -/
theorem itemCovers_dash (h : '-' ∉ a) : itemCovers p (a ++ '-' :: b) = true ↔
    ∃ m n, Gives a m ∧ Gives b n ∧ m ≤ p ∧ p ≤ n := by
  have hstart : '-' ∉ trimStart a := by
    obtain ⟨front, ha, -⟩ := exists_trimStart a
    intro hmem
    rw [ha] at h
    exact h (List.mem_append_right front hmem)
  have hcut : cut? (· == '-') (trim (a ++ '-' :: b)) = some (trimStart a, trimEnd b) := by
    rw [trim_visible (by decide), cut?_piece (beq_sep hstart) (by decide)]
  simp only [itemCovers, hcut, trim_trimStart, trim_trimEnd, gives_iff]
  cases u32? (trim a) with
  | none => simp
  | some m =>
    cases u32? (trim b) with
    | none => simp
    | some n => simp

theorem itemCovers_unread (h : Unread l) : itemCovers p l = false := by
  rw [← Bool.not_eq_true]
  intro hcovers
  by_cases hdash : '-' ∈ l
  · obtain ⟨a, b, rfl, ha⟩ := List.eq_append_cons_of_mem hdash
    obtain ⟨m, n, hm, hn, -⟩ := (itemCovers_dash ha).mp hcovers
    -- the item is two numbers around its first dash, which no way of being unread allows
    generalize hl : a ++ '-' :: b = l at h
    cases h with
    | blank hblank => exact absurd (hblank '-' (by simp [← hl])) (by decide)
    | dashes htwo =>
      rw [← hl, List.count_append, List.count_cons_self, List.count_eq_zero.mpr hm.dashless,
        List.count_eq_zero.mpr hn.dashless] at htwo
      omega
    | number hno => exact hno (by simp [← hl])
    | bound ha' hbad =>
      obtain ⟨rfl, rfl⟩ := append_sep_inj ha ha' hl
      rcases hbad with hbad | hbad
      · exact hbad m hm
      · exact hbad n hn
  · have hgives : Gives l p := (itemCovers_dashless hdash).mp hcovers
    cases h with
    | blank hblank => exact not_gives_blank hblank p hgives
    | dashes htwo =>
      rw [List.count_eq_zero.mpr hdash] at htwo
      omega
    | number _ hbad => exact hbad p hgives
    | bound => exact hdash (by simp)

end Items

namespace Item

/-- An item that is written covers what it says. -/
theorem itemCovers_text (i : Item) (p : UInt32) : itemCovers p i.text = true ↔ i.Covers p := by
  cases i with
  | port n =>
    show itemCovers p n.text = true ↔ p = n.value
    rw [itemCovers_dashless n.gives.dashless]
    constructor
    · intro h
      exact h.unique n.gives
    · rintro rfl
      exact n.gives
  | range a b =>
    show itemCovers p (a.text ++ '-' :: b.text) = true ↔ a.value ≤ p ∧ p ≤ b.value
    rw [itemCovers_dash a.gives.dashless]
    constructor
    · rintro ⟨m, n, hm, hn, hle⟩
      rwa [hm.unique a.gives, hn.unique b.gives] at hle
    · intro hle
      exact ⟨a.value, b.value, a.gives, b.gives, hle⟩
  | unread l _ h =>
    show itemCovers p l = true ↔ False
    rw [itemCovers_unread h]
    simp

theorem commaless (i : Item) : ',' ∉ i.text := by
  cases i with
  | port n => exact n.gives.commaless
  | range a b =>
    intro h
    rcases List.mem_append.mp h with ha | hb
    · exact a.gives.commaless ha
    · rcases List.mem_cons.mp hb with hsep | hb
      · exact absurd hsep (by decide)
      · exact b.gives.commaless hb
  | unread _ single _ => exact single

/-- Whatever has no comma in it is an item. -/
theorem exists_text {l : List Char} (single : ',' ∉ l) : ∃ i : Item, i.text = l := by
  by_cases hdash : '-' ∈ l
  · obtain ⟨a, b, rfl, ha⟩ := List.eq_append_cons_of_mem hdash
    by_cases hm : ∃ m, Gives a m
    · by_cases hn : ∃ n, Gives b n
      · obtain ⟨m, hm⟩ := hm
        obtain ⟨n, hn⟩ := hn
        exact ⟨.range ⟨a, m, hm⟩ ⟨b, n, hn⟩, rfl⟩
      · exact ⟨.unread _ single (.bound ha (.inr (not_exists.mp hn))), rfl⟩
    · exact ⟨.unread _ single (.bound ha (.inl (not_exists.mp hm))), rfl⟩
  · by_cases hn : ∃ n, Gives l n
    · obtain ⟨n, hn⟩ := hn
      exact ⟨.port ⟨l, n, hn⟩, rfl⟩
    · exact ⟨.unread l single (.number hdash (not_exists.mp hn)), rfl⟩

theorem exists_texts {ls : List (List Char)} (single : ∀ l ∈ ls, ',' ∉ l) :
    ∃ items : List Item, items.map text = ls := by
  induction ls with
  | nil => exact ⟨[], rfl⟩
  | cons l r ih =>
    obtain ⟨i, hi⟩ := exists_text (single l List.mem_cons_self)
    obtain ⟨items, hitems⟩ := ih fun l hl => single l (List.mem_cons_of_mem _ hl)
    exact ⟨i :: items, by rw [List.map_cons, hi, hitems]⟩

end Item

/-! ## Lists -/

theorem toList_text (items : List Item) :
    (text items).toList = [','].intercalate (items.map Item.text) := String.toList_ofList

theorem rangeCovers_text (items : List Item) (p : UInt32) :
    rangeCovers (text items) p = true ↔ ∃ i ∈ items, i.Covers p := by
  rw [rangeCovers, toList_text]
  cases items with
  | nil =>
    have hempty : itemCovers p [] = false := itemCovers_unread (.blank (by simp))
    simp [splitAt, hempty]
  | cons i r =>
    have clean : ∀ l ∈ (i :: r).map Item.text, ∀ c ∈ l, (c == ',') = false := by
      intro l hl
      obtain ⟨j, -, rfl⟩ := List.mem_map.mp hl
      exact beq_sep j.commaless
    rw [splitAt_intercalate (by decide) (by simp) clean, List.any_map, List.any_eq_true]
    simp only [Function.comp_apply, Item.itemCovers_text]

/-- Every text is a list of items. -/
theorem exists_items (spec : String) : ∃ items, text items = spec := by
  have single : ∀ l ∈ splitAt (· == ',') spec.toList, ',' ∉ l := by
    intro l hl hmem
    have hsep := splitAt_pieces spec.toList l hl ',' hmem
    simp at hsep
  obtain ⟨items, hitems⟩ := Item.exists_texts single
  refine ⟨items, ?_⟩
  rw [text, hitems, intercalate_splitAt, String.ofList_toList]

theorem rangeCovers_iff {spec : String} {p : UInt32} : rangeCovers spec p = true ↔ Covered spec p := by
  constructor
  · intro h
    obtain ⟨items, rfl⟩ := exists_items spec
    exact ⟨items, rfl, (rangeCovers_text items p).mp h⟩
  · rintro ⟨items, rfl, h⟩
    exact (rangeCovers_text items p).mpr h

end PortList

/-! ## Ports -/

namespace Table

variable {κ ν : Type} [Ord κ]

/-- The value of the first entry of a kind, in the order of the keys. -/
def First (t : Table κ ν) (p : κ → ν → Prop) (v : ν) : Prop :=
  ∃ before k after, t.toList = before ++ (k, v) :: after ∧ p k v ∧ ∀ x ∈ before, ¬ p x.1 x.2

variable {t : Table κ ν} {q : κ × ν → Bool} {p : κ → ν → Prop}

theorem find?_eq_some_iff_first (h : ∀ k v, q (k, v) = true ↔ p k v) {v : ν} :
    (t.toList.find? q).map (·.2) = some v ↔ t.First p v := by
  simp only [Option.map_eq_some_iff, List.find?_eq_some_iff_append]
  constructor
  · rintro ⟨⟨k, v⟩, ⟨hkind, before, after, hl, hbefore⟩, rfl⟩
    refine ⟨before, k, after, hl, (h k v).mp hkind, fun x hx hp => ?_⟩
    have hnot := hbefore x hx
    rw [(h x.1 x.2).mpr hp] at hnot
    cases hnot
  · rintro ⟨before, k, after, hl, hkind, hbefore⟩
    refine ⟨(k, v), ⟨(h k v).mpr hkind, before, after, hl, fun x hx => ?_⟩, rfl⟩
    rw [Bool.not_eq_true', ← Bool.not_eq_true]
    exact mt (h x.1 x.2).mp (hbefore x hx)

theorem find?_eq_none_iff_get? [Std.LawfulEqOrd κ] (h : ∀ k v, q (k, v) = true ↔ p k v) :
    (t.toList.find? q).map (·.2) = none ↔ ∀ k v, t.get? k = some v → ¬ p k v := by
  rw [Option.map_eq_none_iff, List.find?_eq_none]
  constructor
  · intro hnone k v hv
    rw [← h k v]
    exact hnone (k, v) (mem_toList.mpr hv)
  · rintro hnone ⟨k, v⟩ hmem
    rw [h k v]
    exact hnone k v (mem_toList.mp hmem)

end Table

open PortList

/-- The interface has the number: it states it, or is filed under it and states none. -/
inductive Numbered : InterfaceKey → Interface → UInt32 → Prop where
  | stated {k : InterfaceKey} {i : Interface} {p : UInt32} : i.number = some p → Numbered k i p
  | number {i : Interface} {p : UInt32} : i.number = none → Numbered (.number p) i p
  | name {s : String} {i : Interface} {p : UInt32} : i.number = none → Gives s.toList p →
      Numbered (.name s) i p

theorem interfaceNumber_eq_some {k : InterfaceKey} {i : Interface} {p : UInt32} :
    interfaceNumber k i = some p ↔ Numbered k i p := by
  unfold interfaceNumber
  cases hstated : i.number with
  | some n =>
    rw [Option.some_or]
    constructor
    · intro h
      exact .stated (hstated.trans h)
    · rintro (h | h | ⟨h, -⟩)
      · exact hstated.symm.trans h
      · exact absurd (hstated.symm.trans h) nofun
      · exact absurd (hstated.symm.trans h) nofun
  | none =>
    rw [Option.none_or]
    constructor
    · intro h
      cases k with
      | number n =>
        cases h
        exact .number hstated
      | name s => exact .name hstated (gives_iff.mpr h)
    · rintro (h | h | ⟨-, h⟩)
      · exact absurd (hstated.symm.trans h) nofun
      · rfl
      · exact gives_iff.mp h

namespace SwitchWiring

variable {s : SwitchWiring} {p : UInt32}

theorem interface?_eq (s : SwitchWiring) (p : UInt32) :
    s.interface? p = (s.interfaces.toList.find? fun e => interfaceNumber e.1 e.2 = some p).map (·.2) := by
  have hkind : ∀ e : InterfaceKey × Interface,
      (((interfaceNumber e.1 e.2).map (·, e.2)).any fun x => decide (x.1 = p)) =
        decide (interfaceNumber e.1 e.2 = some p) := by
    intro e
    cases interfaceNumber e.1 e.2 <;> simp
  rw [interface?, numbered, List.find?_filterMap]
  simp only [hkind]
  cases hfind : s.interfaces.toList.find? fun e => interfaceNumber e.1 e.2 = some p with
  | none => rfl
  | some e =>
    have hnumber : interfaceNumber e.1 e.2 = some p := by simpa using List.find?_some hfind
    simp [hnumber]

theorem interface?_eq_some {i : Interface} :
    s.interface? p = some i ↔ s.interfaces.First (Numbered · · p) i := by
  rw [interface?_eq]
  exact Table.find?_eq_some_iff_first fun k i => by rw [decide_eq_true_eq, interfaceNumber_eq_some]

theorem interface?_eq_none :
    s.interface? p = none ↔ ∀ k i, s.interfaces.get? k = some i → ¬ Numbered k i p := by
  rw [interface?_eq]
  exact Table.find?_eq_none_iff_get? fun k i => by rw [decide_eq_true_eq, interfaceNumber_eq_some]

theorem range?_eq_some {i : Interface} :
    s.range? p = some i ↔ s.ranges.First (fun spec _ => Covered spec p) i :=
  Table.find?_eq_some_iff_first fun _ _ => rangeCovers_iff

theorem range?_eq_none :
    s.range? p = none ↔ ∀ spec i, s.ranges.get? spec = some i → ¬ Covered spec p :=
  Table.find?_eq_none_iff_get? fun _ _ => rangeCovers_iff

end SwitchWiring

namespace Wiring

/-- An interface with the number goes before every list. -/
theorem port?_eq_some {w : Wiring} {switch : String} {p : UInt32} {i : Interface} :
    w.port? switch p = some i ↔ ∃ s, w.switches.get? switch = some s ∧
      (s.interfaces.First (Numbered · · p) i ∨
        (∀ k j, s.interfaces.get? k = some j → ¬ Numbered k j p) ∧
          s.ranges.First (fun spec _ => Covered spec p) i) := by
  rw [port?, Option.bind_eq_some_iff]
  refine exists_congr fun s => and_congr_right fun _ => ?_
  rw [Option.or_eq_some_iff, SwitchWiring.interface?_eq_some, SwitchWiring.interface?_eq_none,
    SwitchWiring.range?_eq_some]

theorem port?_isSome {w : Wiring} {switch : String} {p : UInt32} :
    (w.port? switch p).isSome = true ↔ ∃ s, w.switches.get? switch = some s ∧
      ((∃ k j, s.interfaces.get? k = some j ∧ Numbered k j p) ∨
        ∃ spec j, s.ranges.get? spec = some j ∧ Covered spec p) := by
  have hboth (s : SwitchWiring) : ((s.interface? p).or (s.range? p)).isSome = true ↔
      (∃ k j, s.interfaces.get? k = some j ∧ Numbered k j p) ∨
        ∃ spec j, s.ranges.get? spec = some j ∧ Covered spec p := by
    rw [Option.isSome_or, Bool.or_eq_true, ← Option.ne_none_iff_isSome, ← Option.ne_none_iff_isSome,
      ne_eq, ne_eq, SwitchWiring.interface?_eq_none, SwitchWiring.range?_eq_none]
    push Not
    rfl
  unfold port?
  cases w.switches.get? switch with
  | none => simp
  | some s => simpa using hboth s

/-- A list of ports has just the ports that its items say: a number the port with that number, a range
the ports from its first to its last, and an item that cannot be read none, whatever blanks stand around
numbers, dashes and commas; and every text is such a list. A port is what the first interface with its
number says. If there is none with its number, it is what the first list says that has it, so that it is
known if there is either. -/
theorem ranges_exact :
    (∀ (items : List Item) (p : UInt32),
      rangeCovers (PortList.text items) p = true ↔ ∃ i ∈ items, i.Covers p) ∧
    (∀ spec : String, ∃ items, PortList.text items = spec) ∧
    ∀ (w : Wiring) (switch : String) (p : UInt32),
      (∀ i, w.port? switch p = some i ↔ ∃ s, w.switches.get? switch = some s ∧
        (s.interfaces.First (Numbered · · p) i ∨
          (∀ k j, s.interfaces.get? k = some j → ¬ Numbered k j p) ∧
            s.ranges.First (fun spec _ => Covered spec p) i)) ∧
      ((w.port? switch p).isSome = true ↔ ∃ s, w.switches.get? switch = some s ∧
        ((∃ k j, s.interfaces.get? k = some j ∧ Numbered k j p) ∨
          ∃ spec j, s.ranges.get? spec = some j ∧ Covered spec p)) :=
  ⟨rangeCovers_text, exists_items, fun _ _ _ => ⟨fun _ => port?_eq_some, port?_isSome⟩⟩

example : [0, 1, 4, 7, 4294967295].map (rangeCovers " 9 -3, 1- 4 ,1-2-3,, x,+07 , 4294967295") =
    [false, true, true, true, true] := by
  decide

end Wiring
end Fabric
