import Fabric.Event
import Fabric.Proofs.Numerals

/-! What a port label says. A label ends in the number of its port, bare or after other words. What is
told here of the label never speaks of how it is read (`Names`); that it is read just so is
`portNumber?_eq_some`. -/

namespace Fabric

open Fabric.Text

namespace Text

theorem words_blanks {l : List Char} (h : ∀ c ∈ l, isBlank c = true) : words l = [] := by
  induction l with
  | nil => rfl
  | cons b r ih =>
    rw [words_blank (h b List.mem_cons_self)]
    exact ih fun c hc => h c (List.mem_cons_of_mem _ hc)

theorem words_clean {w : List Char} (filled : w ≠ []) (h : ∀ c ∈ w, isBlank c = false) : words w = [w] := by
  simp [words, splitAt_clean h, filled]

/-- A word with nothing but blanks behind it, at the start of a text or after a blank. -/
structure LastWord (l w : List Char) : Prop where
  filled : w ≠ []
  clean : ∀ c ∈ w, isBlank c = false
  placed : ∃ front back, l = front ++ w ++ back ∧ (∀ c ∈ front.getLast?, isBlank c = true) ∧
    ∀ c ∈ back, isBlank c = true

theorem LastWord.getLast?_words {l w : List Char} (h : LastWord l w) : (words l).getLast? = some w := by
  obtain ⟨front, back, rfl, hfront, hback⟩ := h.placed
  have htail : words (front ++ w ++ back) = words (front ++ w) := by
    cases back with
    | nil => rw [List.append_nil]
    | cons b r =>
      have hr : words r = [] := words_blanks fun c hc => hback c (List.mem_cons_of_mem b hc)
      rw [words_sep (hback b List.mem_cons_self), hr, List.append_nil]
  rw [htail]
  rcases List.eq_nil_or_concat front with rfl | ⟨f, b, rfl⟩
  · rw [List.nil_append, words_clean h.filled h.clean, List.getLast?_singleton]
  · have hb : isBlank b = true := hfront b (by simp)
    rw [List.concat_eq_append, List.append_assoc, List.singleton_append, words_sep hb,
      words_clean h.filled h.clean, List.getLast?_concat]

theorem exists_lastWord (l : List Char) : (∀ c ∈ l, isBlank c = true) ∨ ∃ w, LastWord l w := by
  induction l with
  | nil => exact .inl (by simp)
  | cons b r ih =>
    rcases ih with hr | ⟨w, filled, clean, front, back, rfl, hfront, hback⟩
    · cases hb : isBlank b with
      | true => exact .inl (by simpa [hb] using hr)
      | false => exact .inr ⟨[b], by simp, by simpa using hb, [], r, rfl, by simp, hr⟩
    · refine .inr ?_
      cases front with
      | cons c f =>
        refine ⟨w, filled, clean, b :: c :: f, back, by simp, ?_, hback⟩
        rwa [List.getLast?_cons_cons]
      | nil =>
        -- the word is longer by one character, or starts behind a blank
        cases hb : isBlank b with
        | true => exact ⟨w, filled, clean, [b], back, by simp, by simpa using hb, hback⟩
        | false =>
          exact ⟨b :: w, by simp, List.forall_mem_cons.mpr ⟨hb, clean⟩, [], back, by simp, by simp, hback⟩

theorem getLast?_words_eq_some {l w : List Char} : (words l).getLast? = some w ↔ LastWord l w := by
  refine ⟨fun h => ?_, LastWord.getLast?_words⟩
  rcases exists_lastWord l with hblank | ⟨v, hv⟩
  · rw [words_blanks hblank] at h
    cases h
  · cases hv.getLast?_words.symm.trans h
    exact hv

/-- Decimal digits for the number, perhaps with zeros and a plus sign in front. -/
def Writes (w : List Char) (n : Nat) : Prop :=
  ∃ sign ds, w = sign ++ ds ∧ (sign = [] ∨ sign = ['+']) ∧ ds ≠ [] ∧ (∀ c ∈ ds, c.isDigit = true) ∧
    decimalFrom 0 ds = n

theorem Writes.filled {w : List Char} {n : Nat} (h : Writes w n) : w ≠ [] := by
  obtain ⟨sign, ds, rfl, -, hds, -⟩ := h
  simp [hds]

theorem Writes.clean {w : List Char} {n : Nat} (h : Writes w n) : ∀ c ∈ w, isBlank c = false := by
  obtain ⟨sign, ds, rfl, hsign, -, hds, -⟩ := h
  refine List.forall_mem_append.mpr ⟨?_, fun c hc => isDigit_clean (hds c hc)⟩
  rcases hsign with rfl | rfl
  · simp
  · simp
    decide

theorem unsigned?_eq_some {limit n : Nat} {w : List Char} :
    unsigned? 10 limit w = some n ↔ Writes w n ∧ n ≤ limit := by
  have hplus {ds : List Char} (hds : ∀ c ∈ ds, c.isDigit = true) : ∀ r, ds ≠ '+' :: r := by
    rintro r rfl
    exact absurd (hds '+' List.mem_cons_self) (by decide)
  simp only [unsigned?, Option.filter_eq_some_iff, digits?_eq_some, decide_eq_true_eq]
  refine and_congr_left fun _ => ⟨fun h => ?_, ?_⟩
  · split at h
    next r => exact ⟨['+'], r, rfl, .inr rfl, h⟩
    next => exact ⟨[], w, rfl, .inl rfl, h⟩
  · rintro ⟨sign, ds, rfl, rfl | rfl, hds⟩
    · rw [List.nil_append]
      split
      next r => exact absurd rfl (hplus hds.2.1 r)
      next => exact hds
    · exact hds

theorem u32?_eq_some {w : List Char} {n : UInt32} : u32? w = some n ↔ Writes w n.toNat := by
  simp only [u32?, Option.map_eq_some_iff, unsigned?_eq_some]
  constructor
  · rintro ⟨m, ⟨hm, hle⟩, rfl⟩
    have hsmall : m < UInt32.size := Nat.lt_succ_of_le hle
    rwa [Nat.toUInt32, UInt32.toNat_ofNat_of_lt' hsmall]
  · intro h
    refine ⟨n.toNat, ⟨h, ?_⟩, by simp⟩
    have := n.toNat_lt
    rw [maxU32]
    omega

end Text

namespace AnnouncedLink

/-- The label ends in the number of the port: nothing but blanks is behind it, and before it there is
nothing or a blank. -/
def Names (label : String) (port : UInt32) : Prop :=
  ∃ front w back, label.toList = front ++ w ++ back ∧ (∀ c ∈ front.getLast?, isBlank c = true) ∧
    Writes w port.toNat ∧ ∀ c ∈ back, isBlank c = true

theorem portNumber?_eq_some {label : String} {port : UInt32} :
    portNumber? label = some port ↔ Names label port := by
  simp only [portNumber?, Option.bind_eq_some_iff, getLast?_words_eq_some, u32?_eq_some]
  constructor
  · rintro ⟨w, ⟨-, -, front, back, hl, hfront, hback⟩, hw⟩
    exact ⟨front, w, back, hl, hfront, hw, hback⟩
  · rintro ⟨front, w, back, hl, hfront, hw, hback⟩
    exact ⟨w, ⟨hw.filled, hw.clean, front, back, hl, hfront, hback⟩, hw⟩

theorem portNumber?_eq_none {label : String} : portNumber? label = none ↔ ∀ port, ¬ Names label port := by
  simp only [← portNumber?_eq_some, Option.eq_none_iff_forall_ne_some, ne_eq]

theorem names_numeral (port : UInt32) : Names (numeral port.toNat) port :=
  ⟨[], numeralIn 10 port.toNat, [], by simp [numeral], by simp,
    ⟨[], numeralIn 10 port.toNat, rfl, .inl rfl, numeralIn_ne_nil _,
      digitsFrom_eq_some.mp (digitsFrom_numeralIn _)⟩, by simp⟩

example : portNumber? "Port 3" = some 3 ∧ portNumber? "+03" = some 3 ∧ portNumber? "3 ports" = none := by
  decide

end AnnouncedLink
end Fabric
