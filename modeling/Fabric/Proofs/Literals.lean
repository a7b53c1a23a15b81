import Fabric.Json.Value

/-! Texts as literals. What is written of a text, its escapes and its bytes, denotes that text
(`denoted?_literalOf`), and it can stand between quotes. Both are proved a character at a time: what
follows the bytes of a character is read after it, and so is what follows its escape. -/

namespace Fabric.Text.Utf8

theorem toNat_toUInt8 {n : Nat} (h : n < 256) : n.toUInt8.toNat = n := Nat.mod_eq_of_lt h

theorem continuation?_tail {x : Nat} (h : x < 64) : continuation? (0x80 + x).toUInt8 = some x := by
  have hbyte : (0x80 + x).toUInt8.toNat = 0x80 + x := toNat_toUInt8 (by omega)
  rw [continuation?, hbyte, if_pos (by omega), Nat.add_sub_cancel_left]

theorem scalar?_toNat {least : Nat} {c : Char} (h : least ≤ c.toNat) : scalar? least c.toNat = some c := by
  rw [scalar?, dif_pos ⟨h, c.valid⟩]
  rfl

theorem toNat_lt (c : Char) : c.toNat < 0x110000 := by
  rcases c.valid with h | h
  · exact Nat.lt_trans h (by decide)
  · exact h.2

/-- Whatever follows the bytes of a character is read after it. -/
theorem decodeOnto_encodeChar (acc : List Char) (c : Char) (r : List UInt8) :
    decodeOnto acc (encodeChar c ++ r) = decodeOnto (c :: acc) r := by
  have hmost := toNat_lt c
  unfold encodeChar
  dsimp only
  split
  next h =>
    have hbyte : c.toNat.toUInt8.toNat = c.toNat := toNat_toUInt8 (by omega)
    rw [List.singleton_append, decodeOnto.eq_def]
    dsimp only
    rw [hbyte, if_pos h, Char.ofNat_toNat]
  next h =>
    split
    next h' =>
      have hlead : (0xC0 + c.toNat / 64).toUInt8.toNat = 0xC0 + c.toNat / 64 := toNat_toUInt8 (by omega)
      have hsum : (0xC0 + c.toNat / 64 - 0xC0) * 64 + c.toNat % 64 = c.toNat := by omega
      rw [List.cons_append, List.singleton_append, decodeOnto]
      rw [hlead, if_neg (by omega), if_neg (by omega), if_pos (by omega),
        continuation?_tail (Nat.mod_lt _ (by decide))]
      dsimp only
      rw [hsum, scalar?_toNat (by omega)]
    next h' =>
      split
      next h'' =>
        have hlead : (0xE0 + c.toNat / 4096).toUInt8.toNat = 0xE0 + c.toNat / 4096 := toNat_toUInt8 (by omega)
        have hsum : ((0xE0 + c.toNat / 4096 - 0xE0) * 64 + c.toNat / 64 % 64) * 64 + c.toNat % 64 = c.toNat := by
          omega
        rw [List.cons_append, List.cons_append, List.singleton_append, decodeOnto]
        dsimp only
        rw [hlead, if_neg (by omega), if_neg (by omega), if_neg (by omega), if_pos (by omega),
          continuation?_tail (Nat.mod_lt _ (by decide)), continuation?_tail (Nat.mod_lt _ (by decide))]
        dsimp only
        rw [hsum, scalar?_toNat (by omega)]
      next h'' =>
        have hlead : (0xF0 + c.toNat / 262144).toUInt8.toNat = 0xF0 + c.toNat / 262144 :=
          toNat_toUInt8 (by omega)
        have hsum : (((0xF0 + c.toNat / 262144 - 0xF0) * 64 + c.toNat / 4096 % 64) * 64 + c.toNat / 64 % 64) * 64 +
            c.toNat % 64 = c.toNat := by omega
        rw [List.cons_append, List.cons_append, List.cons_append, List.singleton_append, decodeOnto]
        dsimp only
        rw [hlead, if_neg (by omega), if_neg (by omega), if_neg (by omega), if_neg (by omega), if_pos (by omega),
          continuation?_tail (Nat.mod_lt _ (by decide)), continuation?_tail (Nat.mod_lt _ (by decide)),
          continuation?_tail (Nat.mod_lt _ (by decide))]
        dsimp only
        rw [hsum, scalar?_toNat (by omega)]

theorem decodeOnto_flatMap (l acc : List Char) (r : List UInt8) :
    decodeOnto acc (l.flatMap encodeChar ++ r) = decodeOnto (l.reverse ++ acc) r := by
  induction l generalizing acc with
  | nil => rfl
  | cons c l ih =>
    rw [List.flatMap_cons, List.append_assoc, decodeOnto_encodeChar, ih]
    simp

/-- A text is read back from its bytes. -/
theorem decode_encode (s : String) : decode (encode s) = some s := by
  have h := decodeOnto_flatMap s.toList [] []
  rw [List.append_nil, List.append_nil] at h
  rw [decode, encode, h]
  simp [decodeOnto]

/-- The only bytes below 0x80 are those of ASCII characters. -/
theorem mem_encodeChar {c : Char} {b : UInt8} (h : b ∈ encodeChar c) : b.toNat = c.toNat ∨ 0x80 ≤ b.toNat := by
  have hmost := toNat_lt c
  unfold encodeChar at h
  dsimp only at h
  split at h
  next hlow =>
    rw [List.mem_singleton.mp h]
    exact .inl (toNat_toUInt8 (by omega))
  next =>
    right
    split at h
    next =>
      simp only [List.mem_cons, List.not_mem_nil, or_false] at h
      rcases h with rfl | rfl
      all_goals rw [toNat_toUInt8 (by omega)]; omega
    next =>
      split at h
      all_goals
        simp only [List.mem_cons, List.not_mem_nil, or_false] at h
      · rcases h with rfl | rfl | rfl
        all_goals rw [toNat_toUInt8 (by omega)]; omega
      · rcases h with rfl | rfl | rfl | rfl
        all_goals rw [toNat_toUInt8 (by omega)]; omega

theorem encode_append (s t : String) : encode (s ++ t) = encode s ++ encode t := by
  simp [encode]

end Fabric.Text.Utf8

namespace Fabric.Json

open Fabric.Text

/-- A control character in hexadecimal. -/
theorem hexPadded_control {n : Nat} (h : n < 0x20) :
    hexPadded 4 n = ['0', '0', digitChar (n / 16), digitChar (n % 16)] ∧
      hex4? '0' '0' (digitChar (n / 16)) (digitChar (n % 16)) = some n := by
  have hall : ∀ n : Fin 0x20, hexPadded 4 n = ['0', '0', digitChar (n / 16), digitChar (n % 16)] ∧
      hex4? '0' '0' (digitChar (n / 16)) (digitChar (n % 16)) = some n.val := by decide
  exact hall ⟨n, h⟩

theorem unescapeOnto_short {c e : Char} (h : shortEscape? c = some e) (acc r : List Char) :
    unescapeOnto acc ('\\' :: e :: r) = unescapeOnto (c :: acc) r := by
  unfold shortEscape? at h
  split at h <;> cases h <;> simp [unescapeOnto, unescapeShort?]

theorem unescapeOnto_plain {c : Char} (h : c ≠ '\\') (acc r : List Char) :
    unescapeOnto acc (c :: r) = unescapeOnto (c :: acc) r := by
  simp [unescapeOnto, h]

/-- An escape denotes what it was made of. -/
theorem unescapeOnto_escape (acc : List Char) (c : Char) (r : List Char) :
    unescapeOnto acc (escape c ++ r) = unescapeOnto (c :: acc) r := by
  unfold escape
  split
  next e he => exact unescapeOnto_short he acc r
  next hnone =>
    split
    next hlow =>
      obtain ⟨hdigits, hvalue⟩ := hexPadded_control hlow
      have hhigh : isHigh c.toNat = false := by simp [isHigh]; omega
      have hlow' : isLow c.toNat = false := by simp [isLow]; omega
      rw [hdigits]
      simp only [List.cons_append, List.nil_append, unescapeOnto, hvalue, hhigh, hlow', Bool.false_eq_true,
        if_false, Char.ofNat_toNat]
    next =>
      have hne : c ≠ '\\' := by
        rintro rfl
        cases hnone
      exact unescapeOnto_plain hne acc r

theorem unescapeOnto_flatMap (l acc : List Char) :
    unescapeOnto acc (l.flatMap escape) = some (acc.reverse ++ l) := by
  induction l generalizing acc with
  | nil => simp [unescapeOnto]
  | cons c l ih => rw [List.flatMap_cons, unescapeOnto_escape, ih]; simp

/-- The literal of a text denotes it. -/
theorem denoted?_literalOf (s : String) : denoted? (literalOf s) = some s := by
  rw [denoted?, literalOf, Utf8.decode_encode, Option.bind_some, String.toList_ofList, unescapeOnto_flatMap]
  simp

/-! ## Between the quotes -/

/-- What can stand between quotes: no quote, no control character, and every backslash begins an escape. -/
inductive Literal : List UInt8 → Prop where
  | nil : Literal []
  | plain {b : UInt8} {r : List UInt8} (visible : 0x20 ≤ b) (quote : b ≠ 0x22) (backslash : b ≠ 0x5C)
      (rest : Literal r) : Literal (b :: r)
  | short {b : UInt8} {r : List UInt8} (escaped : (unescapeShort? (Char.ofNat b.toNat)).isSome = true)
      (rest : Literal r) : Literal (0x5C :: b :: r)
  | code {a b c d : UInt8} {r : List UInt8}
      (digits : ∀ x ∈ [a, b, c, d], (digit? 16 (Char.ofNat x.toNat)).isSome = true) (rest : Literal r) :
      Literal (0x5C :: 0x75 :: a :: b :: c :: d :: r)

theorem Literal.of_plain {l : List UInt8} (h : ∀ b ∈ l, 0x20 ≤ b ∧ b ≠ 0x22 ∧ b ≠ 0x5C) : Literal l := by
  induction l with
  | nil => exact .nil
  | cons b r ih =>
    obtain ⟨hb, hr⟩ := List.forall_mem_cons.mp h
    exact .plain hb.1 hb.2.1 hb.2.2 (ih hr)

theorem Literal.append {l m : List UInt8} (hl : Literal l) (hm : Literal m) : Literal (l ++ m) := by
  induction hl with
  | nil => exact hm
  | plain visible quote backslash _ ih => exact .plain visible quote backslash ih
  | short escaped _ ih => exact .short escaped ih
  | code digits _ ih => exact .code digits ih

theorem encode_control {n : Nat} (h : n < 0x20) :
    Literal (('\\' :: 'u' :: '0' :: '0' :: [digitChar (n / 16), digitChar (n % 16)]).flatMap Utf8.encodeChar) := by
  have hall : ∀ d < 0x10, Utf8.encodeChar (digitChar d) = [(digitChar d).toNat.toUInt8] ∧
      (digit? 16 (Char.ofNat (digitChar d).toNat.toUInt8.toNat)).isSome = true := by
    decide
  have hhigh := hall (n / 16) (by omega)
  have hlow := hall (n % 16) (by omega)
  have hzero : (digit? 16 (Char.ofNat (0x30 : UInt8).toNat)).isSome = true := by decide
  simp only [List.flatMap_cons, hhigh.1, hlow.1]
  refine .code ?_ .nil
  simp only [List.forall_mem_cons]
  exact ⟨hzero, hzero, hhigh.2, hlow.2, by simp⟩

theorem literal_escape (c : Char) : Literal ((escape c).flatMap Utf8.encodeChar) := by
  unfold escape
  split
  next e he =>
    unfold shortEscape? at he
    split at he <;> cases he <;> exact .short (by decide) .nil
  next hnone =>
    split
    next hlow =>
      rw [(hexPadded_control hlow).1]
      exact encode_control hlow
    next hhigh =>
      rw [List.flatMap_singleton]
      have hquote : c.toNat ≠ 0x22 := fun h => by
        obtain rfl : c = '"' := Char.toNat_inj.mp h
        cases hnone
      have hbackslash : c.toNat ≠ 0x5C := fun h => by
        obtain rfl : c = '\\' := Char.toNat_inj.mp h
        cases hnone
      refine .of_plain fun b hb => ?_
      have hb := Utf8.mem_encodeChar hb
      refine ⟨UInt8.le_iff_toNat_le.mpr ?_, fun h => ?_, fun h => ?_⟩
      · show 0x20 ≤ b.toNat
        omega
      · have hn : b.toNat = 0x22 := by rw [h]; rfl
        omega
      · have hn : b.toNat = 0x5C := by rw [h]; rfl
        omega

theorem literal_literalOf (s : String) : Literal (literalOf s) := by
  rw [literalOf, Utf8.encode, String.toList_ofList]
  induction s.toList with
  | nil => exact .nil
  | cons c r ih =>
    rw [List.flatMap_cons, List.flatMap_append]
    exact (literal_escape c).append ih

end Fabric.Json
