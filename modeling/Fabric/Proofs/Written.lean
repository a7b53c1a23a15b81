import Fabric.Proofs.Spelling
import Fabric.Json.Writer

/-! The text that is written of a value spells it, provided that its texts are literals of texts and that its
numbers are written so that they read back (`Reproduced`): a natural number of 64 bits is, and so is a negative
one, but a float need not be. Of what follows the text of a value only this matters, that no number and no word
goes on in it. -/

namespace Fabric.Json

open Fabric.Text

/-! ## Numbers -/

/-- A number whose text reads back as it. -/
def Reproduced (n : JsonNumber) : Prop :=
  (numeral? (JsonNumber.render n).toList).map Numeral.value = some n

theorem value_numeralIn {n : Nat} (h : n ≤ maxU64) :
    Numeral.value ⟨false, numeralIn 10 n, none, none⟩ = .natural n := by
  rw [Numeral.value, digits?_numeralIn]
  simp [h]

theorem reproduced_natural {n : Nat} (h : n ≤ maxU64) : Reproduced (.natural n) := by
  have htext : (JsonNumber.render (.natural n)).toList = numeralIn 10 n := String.toList_ofList
  rw [Reproduced, htext, numeral?_numeralIn, Option.map_some, value_numeralIn h]

theorem reproduced_negative {n : Nat} (hpos : 0 < n) (h : n ≤ maxI64 + 1) : Reproduced (.negative n) := by
  have htext : (JsonNumber.render (.negative n)).toList = '-' :: numeralIn 10 n := by
    simp [JsonNumber.render, numeral]
  have hsigned : numeral? ('-' :: numeralIn 10 n) = unsignedNumeral? true (numeralIn 10 n) := numeral?_eq _
  rw [Reproduced, htext, hsigned, unsignedNumeral?_numeralIn, Option.map_some, Numeral.value, digits?_numeralIn]
  simp [hpos, h]

theorem toNat_numberPart {c : Char} (h : isNumberPart c = true) : c.toNat < 0x80 := by
  simp only [isNumberPart, isDigit, Bool.or_eq_true, Bool.and_eq_true, decide_eq_true_eq] at h
  rcases h with (((((⟨-, h⟩ | rfl) | rfl) | rfl) | rfl) | rfl)
  · exact Nat.lt_of_le_of_lt h (by decide)
  all_goals decide

theorem map_charOf_encode {l : List Char} (h : ∀ c ∈ l, c.toNat < 0x80) :
    (l.flatMap Utf8.encodeChar).map charOf = l := by
  induction l with
  | nil => rfl
  | cons c r ih =>
    obtain ⟨hc, hr⟩ := List.forall_mem_cons.mp h
    have hbyte : Utf8.encodeChar c = [c.toNat.toUInt8] := if_pos hc
    rw [List.flatMap_cons, hbyte, List.singleton_append, List.map_cons, ih hr, charOf,
      Utf8.toNat_toUInt8 (by omega), Char.ofNat_toNat]

theorem Reproduced.spells {n : JsonNumber} (h : Reproduced n) {ts : List Token} {r : List UInt8}
    (ends : ∀ b ∈ r.head?, isNumberPart (charOf b) = false) (rest : Spells ts r) :
    Spells (.leaf (.number n) :: ts) (Utf8.encode (JsonNumber.render n) ++ r) := by
  obtain ⟨m, hm, rfl⟩ := Option.map_eq_some_iff.mp h
  have hascii := fun c hc => toNat_numberPart ((numeral?_parts hm).1 c hc)
  exact .number (by rwa [Utf8.encode, map_charOf_encode hascii]) ends rest

/-! ## Values -/

/-- A value that can be written as it is. -/
inductive Writable : Json → Prop where
  | null : Writable .null
  | truth (b : Bool) : Writable (.truth b)
  | number {n : JsonNumber} (reproduced : Reproduced n) : Writable (.number n)
  | text (s : String) : Writable (.ofText s)
  | list {l : List Json} (items : ∀ v ∈ l, Writable v) : Writable (.list l)
  | record {ms : List (List UInt8 × Json)} (keys : ∀ e ∈ ms, ∃ s, e.1 = literalOf s)
      (values : ∀ e ∈ ms, Writable e.2) : Writable (.record ms)

theorem encode_quoted (s : String) : Utf8.encode (quoted (literalOf s)) = 0x22 :: (literalOf s ++ [0x22]) := by
  rw [quoted, literalOf, Utf8.decode_encode, Option.getD_some, Utf8.encode_append, Utf8.encode_append]
  rfl

/-- Nothing of a number or a word goes on here. -/
def Over (r : List UInt8) : Prop :=
  ∀ b ∈ r.head?, isNumberPart (charOf b) = false ∧ (charOf b).isAlpha = false

/-- The text of a value spells it, whatever goes on after it. -/
def Written (j : Json) : Prop :=
  ∀ ts r, Over r → Spells ts r → Spells (j.tokens ++ ts) (Utf8.encode (compact j) ++ r)

theorem spells_constant {v : Json} {l : List UInt8} (known : (v, l) ∈ constants) {ts : List Token} {r : List UInt8}
    (ends : Over r) (rest : Spells ts r) : Spells (.leaf v :: ts) (l ++ r) :=
  .word known (fun b hb => (ends b hb).2) rest

theorem encode_comma (s : String) (t : String) (r : List String) :
    Utf8.encode (join "," (s :: t :: r)) = Utf8.encode s ++ 0x2C :: Utf8.encode (join "," (t :: r)) := by
  rw [join, Utf8.encode_append, Utf8.encode_append, List.append_assoc]
  · rfl
  · simp

theorem over_mark {b : UInt8} (h : b = 0x2C ∨ b = 0x5D ∨ b = 0x7D) (r : List UInt8) : Over (b :: r) := by
  intro c hc
  obtain rfl : b = c := by simpa using hc
  rcases h with rfl | rfl | rfl <;> exact ⟨by decide, by decide⟩

theorem spells_items {v : Json} {l : List Json} (h : ∀ w ∈ v :: l, Written w) {ts : List Token} {r : List UInt8}
    (rest : Spells ts r) :
    Spells (tokens v ++ (moreItems l ++ ts)) (Utf8.encode (join "," (compactItems (v :: l))) ++ 0x5D :: r) := by
  induction l generalizing v with
  | nil => exact h v (by simp) _ _ (over_mark (by simp) r) (.mark rfl rest)
  | cons w l ih =>
    obtain ⟨hv, hl⟩ := List.forall_mem_cons.mp h
    rw [compactItems, compactItems, encode_comma, List.append_assoc, List.cons_append]
    have hrest := ih hl
    rw [← List.append_assoc] at hrest
    exact hv _ _ (over_mark (by simp) _) (.mark rfl hrest)

theorem spells_member (k : String) {v : Json} (hv : Written v) {ts : List Token} {r : List UInt8} (ends : Over r)
    (rest : Spells ts r) :
    Spells (.leaf (.text (literalOf k)) :: .colon :: (tokens v ++ ts))
      (Utf8.encode (quoted (literalOf k) ++ ":" ++ compact v) ++ r) := by
  have hcolon : Spells (.colon :: (tokens v ++ ts)) (0x3A :: (Utf8.encode (compact v) ++ r)) :=
    .mark rfl (hv _ _ ends rest)
  have hbytes : Utf8.encode (quoted (literalOf k) ++ ":" ++ compact v) ++ r =
      0x22 :: (literalOf k ++ 0x22 :: 0x3A :: (Utf8.encode (compact v) ++ r)) := by
    rw [Utf8.encode_append, Utf8.encode_append, encode_quoted, show Utf8.encode ":" = [0x3A] from rfl]
    simp
  rw [hbytes]
  exact .text (literal_literalOf k) hcolon

theorem spells_members {k : String} {v : Json} {l : List (List UInt8 × Json)} (hv : Written v)
    (keys : ∀ e ∈ l, ∃ s, e.1 = literalOf s) (values : ∀ e ∈ l, Written e.2) {ts : List Token} {r : List UInt8}
    (rest : Spells ts r) :
    Spells (.leaf (.text (literalOf k)) :: .colon :: (tokens v ++ (moreMembers l ++ ts)))
      (Utf8.encode (join "," (compactMembers ((literalOf k, v) :: l))) ++ 0x7D :: r) := by
  induction l generalizing k v with
  | nil => exact spells_member k hv (over_mark (by simp) r) (.mark rfl rest)
  | cons e l ih =>
    obtain ⟨⟨s, hs⟩, hkeys⟩ := List.forall_mem_cons.mp keys
    obtain ⟨he, hl⟩ := List.forall_mem_cons.mp values
    obtain ⟨k', w⟩ := e
    obtain rfl : k' = literalOf s := hs
    have hrest := ih (k := s) (v := w) he hkeys hl
    rw [← List.append_assoc] at hrest
    rw [compactMembers, compactMembers, encode_comma, List.append_assoc, List.cons_append]
    exact spells_member k hv (over_mark (by simp) _) (.mark rfl hrest)

theorem Writable.written {j : Json} (h : Writable j) : Written j := by
  induction h with
  | null =>
    intro ts r ends rest
    exact spells_constant (l := [0x6E, 0x75, 0x6C, 0x6C]) (by simp [constants]) ends rest
  | truth b =>
    intro ts r ends rest
    cases b with
    | true => exact spells_constant (l := [0x74, 0x72, 0x75, 0x65]) (by simp [constants]) ends rest
    | false => exact spells_constant (l := [0x66, 0x61, 0x6C, 0x73, 0x65]) (by simp [constants]) ends rest
  | number reproduced => exact fun ts r ends rest => reproduced.spells (fun b hb => (ends b hb).1) rest
  | text s =>
    intro ts r _ rest
    show Spells (.leaf (.text (literalOf s)) :: ts) (Utf8.encode (quoted (literalOf s)) ++ r)
    rw [encode_quoted, List.cons_append, List.append_assoc]
    exact .text (literal_literalOf s) rest
  | @list l items ih =>
    intro ts r _ rest
    rw [compact, Utf8.encode_append, Utf8.encode_append, List.append_assoc, List.append_assoc]
    cases l with
    | nil => exact .mark (t := .openList) rfl (.mark (t := .closeList) rfl rest)
    | cons v l =>
      have hitems := spells_items ih rest
      rw [← List.append_assoc] at hitems
      exact .mark (t := .openList) rfl hitems
  | @record ms keys values ih =>
    intro ts r _ rest
    rw [compact, Utf8.encode_append, Utf8.encode_append, List.append_assoc, List.append_assoc]
    cases ms with
    | nil => exact .mark (t := .openRecord) rfl (.mark (t := .closeRecord) rfl rest)
    | cons e l =>
      obtain ⟨k, v⟩ := e
      obtain ⟨⟨s, hs⟩, hkeys⟩ := List.forall_mem_cons.mp keys
      obtain ⟨hv, hl⟩ := List.forall_mem_cons.mp ih
      obtain rfl : k = literalOf s := hs
      have hmembers := spells_members (k := s) (v := v) hv hkeys hl rest
      rw [← List.append_assoc] at hmembers
      exact .mark (t := .openRecord) rfl hmembers

/-- The text of a value spells it. -/
theorem Writable.spells {j : Json} (h : Writable j) : Spells j.tokens (Utf8.encode (compact j)) := by
  simpa using h.written [] [] (by simp [Over]) .done

end Fabric.Json
