import Mathlib.Algebra.Group.Nat.Defs
import Fabric.Text.Numeral
import Fabric.Proofs.Pieces

/-! Decimal numerals. What is read as a number is digits throughout, so it has no blank in it, and
its value is that of its digits (`digitsFrom_eq_some`). A numeral is read back as the number that it
was made of. -/

namespace Fabric.Text

/-! ## Reading -/

theorem isBlank_ascii {c : Char} (low : 0x20 < c.toNat) (high : c.toNat < 0x80) : isBlank c = false := by
  simp only [isBlank, Bool.or_eq_false_iff, Bool.and_eq_false_iff, decide_eq_false_iff_not,
    beq_eq_false_iff_ne]
  omega

theorem isDigit_iff {c : Char} : c.isDigit = true ↔ 0x30 ≤ c.toNat ∧ c.toNat ≤ 0x39 := by
  simp only [Char.isDigit, Bool.and_eq_true, decide_eq_true_eq, ge_iff_le, UInt32.le_iff_toNat_le]
  rfl

theorem digit?_ten (c : Char) : digit? 10 c = if c.isDigit then some (c.toNat - '0'.toNat) else none := by
  by_cases h : c.isDigit = true
  · have hrange := isDigit_iff.mp h
    have hsmall : c.toNat - 0x30 < 10 := by omega
    simp [digit?, h, hrange, hsmall]
  · have hrange := mt isDigit_iff.mpr h
    simp only [digit?, if_neg hrange, if_neg h]
    split
    next => simp
    next => split <;> simp

theorem isDigit_clean {c : Char} (h : c.isDigit = true) : isBlank c = false := by
  have hrange := isDigit_iff.mp h
  exact isBlank_ascii (by omega) (by omega)

theorem digit?_clean {c : Char} {d : Nat} (h : digit? 10 c = some d) : isBlank c = false := by
  rw [digit?_ten] at h
  split at h
  next hc => exact isDigit_clean hc
  next => cases h

/-- The number that decimal digits stand for after `acc`. -/
def decimalFrom (acc : Nat) (ds : List Char) : Nat :=
  ds.foldl (fun n c => n * 10 + (c.toNat - '0'.toNat)) acc

theorem digitsFrom_eq_some {acc n : Nat} {l : List Char} :
    digitsFrom 10 acc l = some n ↔ (∀ c ∈ l, c.isDigit = true) ∧ decimalFrom acc l = n := by
  induction l generalizing acc with
  | nil => simp [digitsFrom, decimalFrom]
  | cons b r ih =>
    rw [digitsFrom, digit?_ten]
    by_cases h : b.isDigit = true
    · rw [if_pos h]
      dsimp only
      rw [ih, List.forall_mem_cons, decimalFrom, decimalFrom, List.foldl_cons]
      simp [h]
    · simp [h]

theorem digits?_eq_some {l : List Char} {n : Nat} :
    digits? 10 l = some n ↔ l ≠ [] ∧ (∀ c ∈ l, c.isDigit = true) ∧ decimalFrom 0 l = n := by
  cases l with
  | nil => simp [digits?]
  | cons b r => simp [digits?, digitsFrom_eq_some]

theorem digits?_clean {l : List Char} {n : Nat} (h : digits? 10 l = some n) :
    ∀ c ∈ l, isBlank c = false := fun c hc => isDigit_clean ((digits?_eq_some.mp h).2.1 c hc)

/-! ## Writing -/

theorem digit?_digitChar {d : Nat} (h : d < 10) : digit? 10 (digitChar d) = some d := by
  have hall : ∀ d : Fin 10, digit? 10 (digitChar d) = some d.val := by decide
  exact hall ⟨d, h⟩

theorem digitsFrom_digitsOnto {fuel n : Nat} (h : n < 10 ^ fuel) (acc : List Char) :
    digitsFrom 10 0 (digitsOnto 10 fuel n acc) = digitsFrom 10 n acc := by
  induction fuel generalizing n acc with
  | zero =>
    obtain rfl : n = 0 := by simpa using h
    rfl
  | succ fuel ih =>
    rw [digitsOnto]
    split
    next hsmall =>
      rw [digitsFrom, digit?_digitChar hsmall, Nat.zero_mul]
      dsimp only
      rw [Nat.zero_add]
    next =>
      have hrest : n / 10 < 10 ^ fuel := by rw [Nat.pow_succ] at h; omega
      rw [ih hrest, digitsFrom, digit?_digitChar (Nat.mod_lt n (by decide))]
      dsimp only
      rw [Nat.div_add_mod']

theorem lt_pow_log2 (n : Nat) : n < 10 ^ (n.log2 + 1) :=
  Nat.lt_of_lt_of_le Nat.lt_log2_self (Nat.pow_le_pow_left (by decide) _)

theorem digitsFrom_numeralIn (n : Nat) : digitsFrom 10 0 (numeralIn 10 n) = some n := by
  rw [numeralIn, digitsFrom_digitsOnto (lt_pow_log2 n)]
  rfl

theorem numeralIn_inj {m n : Nat} (h : numeralIn 10 m = numeralIn 10 n) : m = n := by
  have hm := digitsFrom_numeralIn m
  rw [h, digitsFrom_numeralIn] at hm
  exact (Option.some.inj hm).symm

theorem notMem_numeralIn {c : Char} (hc : c.isDigit = false) (n : Nat) : c ∉ numeralIn 10 n := by
  intro hmem
  rw [(digitsFrom_eq_some.mp (digitsFrom_numeralIn n)).1 c hmem] at hc
  cases hc

theorem numeralIn_ne_nil (n : Nat) : numeralIn 10 n ≠ [] := by
  intro h
  have hread := digitsFrom_numeralIn n
  rw [h] at hread
  obtain rfl : 0 = n := Option.some.inj hread
  exact absurd h (by decide)

theorem digitChar_ne_zero {d : Nat} (h : d < 10) (hd : 0 < d) : digitChar d ≠ '0' := by
  have hall : ∀ d : Fin 10, 0 < d.val → digitChar d ≠ '0' := by decide
  exact hall ⟨d, h⟩ hd

theorem digitsOnto_head {fuel n : Nat} (h : n < 10 ^ fuel) (hn : 0 < n) (acc : List Char) :
    ∃ d r, digitsOnto 10 fuel n acc = d :: r ∧ d ≠ '0' := by
  induction fuel generalizing n acc with
  | zero =>
    rw [Nat.pow_zero] at h
    omega
  | succ fuel ih =>
    rw [digitsOnto]
    split
    next hsmall => exact ⟨_, _, rfl, digitChar_ne_zero hsmall hn⟩
    next =>
      rw [Nat.pow_succ] at h
      exact ih (by omega) (by omega) _

/-- No whole number is written with a zero in front. -/
theorem numeralIn_head (n : Nat) : numeralIn 10 n = ['0'] ∨ ∃ d r, numeralIn 10 n = d :: r ∧ d ≠ '0' := by
  rcases Nat.eq_zero_or_pos n with rfl | hn
  · exact .inl (by decide)
  · exact .inr (digitsOnto_head (lt_pow_log2 n) hn [])

theorem digits?_numeralIn (n : Nat) : digits? 10 (numeralIn 10 n) = some n := by
  obtain ⟨c, r, hcr⟩ := List.exists_cons_of_ne_nil (numeralIn_ne_nil n)
  rw [hcr, digits?, ← hcr, digitsFrom_numeralIn]

end Fabric.Text
