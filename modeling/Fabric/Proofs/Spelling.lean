import Mathlib.Data.List.TakeWhile
import Fabric.Proofs.Literals
import Fabric.Proofs.Numerals
import Fabric.Json.Reader

/-! What spells a JSON value. The tokens of a value follow its structure, and bytes spell tokens with any
spaces between them; that numbers and constants end where something else begins is all that has to be seen
to. Whatever spells a value is read as that value (`ofBytes?_spells`): the bytes are cut into these
tokens, and the machine, which meets them with any stack of open lists and records, puts the value
together. -/

namespace Fabric.Json

open Fabric.Text

/-! ## Numbers -/

theorem isNumberPart_digit {c : Char} (h : isDigit c = true) : isNumberPart c = true := by
  simp [isNumberPart, h]

theorem isNumberPart_digits {l : List Char} {n : Nat} (h : digits? 10 l = some n) :
    ∀ c ∈ l, isNumberPart c = true := fun c hc => isNumberPart_digit ((digits?_eq_some.mp h).2.1 c hc)

theorem isNumberPart_takeWhile (l : List Char) : ∀ c ∈ l.takeWhile isDigit, isNumberPart c = true :=
  fun c hc => isNumberPart_digit (List.all_eq_true.mp List.all_takeWhile c hc)

theorem exponent?_parts {l : List Char} {e : Int} (h : exponent? l = some e) :
    ∀ c ∈ l, isNumberPart c = true := by
  unfold exponent? at h
  split at h
  next r =>
    cases hn : digits? 10 r with
    | none => simp [hn] at h
    | some n => exact List.forall_mem_cons.mpr ⟨rfl, isNumberPart_digits hn⟩
  next =>
    obtain ⟨n, hn, -⟩ := Option.map_eq_some_iff.mp h
    exact List.forall_mem_cons.mpr ⟨rfl, isNumberPart_digits hn⟩
  next =>
    obtain ⟨n, hn, -⟩ := Option.map_eq_some_iff.mp h
    exact isNumberPart_digits hn

/-- Digits with no zero in front of others. -/
def wholeOk : List Char → Bool
  | [] => false
  | '0' :: _ :: _ => false
  | _ => true

/-- The end of a numeral, its sign, whole part and fraction known. -/
def endNumeral? (negative : Bool) (whole : List Char) (fraction : Option (List Char)) (rest : List Char) :
    Option Numeral :=
  if !wholeOk whole || fraction == some [] then none
  else match rest with
    | [] => some ⟨negative, whole, fraction, none⟩
    | c :: r =>
      if c = 'e' ∨ c = 'E' then (exponent? r).map fun e => ⟨negative, whole, fraction, some e⟩
      else none

/-- A numeral after its sign. -/
def unsignedNumeral? (negative : Bool) (cs : List Char) : Option Numeral :=
  let whole := cs.takeWhile isDigit
  let rest := cs.dropWhile isDigit
  let (fraction, rest) := match rest with
    | '.' :: r => (some (r.takeWhile isDigit), r.dropWhile isDigit)
    | _ => (none, rest)
  endNumeral? negative whole fraction rest

theorem numeral?_eq (cs : List Char) :
    numeral? cs = match cs with
      | '-' :: r => unsignedNumeral? true r
      | _ => unsignedNumeral? false cs := by
  split
  next => rfl
  next =>
    unfold numeral?
    simp only
    rfl

theorem endNumeral?_parts {negative : Bool} {whole rest : List Char} {fraction : Option (List Char)} {n : Numeral}
    (h : endNumeral? negative whole fraction rest = some n) :
    whole ≠ [] ∧ ∀ c ∈ rest, isNumberPart c = true := by
  unfold endNumeral? at h
  refine ⟨by rintro rfl; simp [wholeOk] at h, ?_⟩
  split at h
  · cases h
  split at h
  next => simp
  next c r =>
    split at h
    next hc =>
      obtain ⟨e, he, -⟩ := Option.map_eq_some_iff.mp h
      refine List.forall_mem_cons.mpr ⟨?_, exponent?_parts he⟩
      rcases hc with rfl | rfl <;> rfl
    next => cases h

theorem unsignedNumeral?_parts {negative : Bool} {cs : List Char} {n : Numeral}
    (h : unsignedNumeral? negative cs = some n) :
    (∀ c ∈ cs, isNumberPart c = true) ∧ ∃ c r, cs = c :: r ∧ isDigit c = true := by
  have hcut := List.takeWhile_append_dropWhile (p := isDigit) (l := cs)
  obtain ⟨hwhole, hrest⟩ : cs.takeWhile isDigit ≠ [] ∧ ∀ c ∈ cs.dropWhile isDigit, isNumberPart c = true := by
    unfold unsignedNumeral? at h
    dsimp only at h
    obtain ⟨hwhole, hrest⟩ := endNumeral?_parts h
    refine ⟨hwhole, ?_⟩
    split at hrest
    next r hpoint =>
      rw [hpoint, ← List.takeWhile_append_dropWhile (p := isDigit) (l := r)]
      exact List.forall_mem_cons.mpr ⟨rfl, List.forall_mem_append.mpr ⟨isNumberPart_takeWhile r, hrest⟩⟩
    next => exact hrest
  refine ⟨fun c hc => ?_, ?_⟩
  · rw [← hcut] at hc
    rcases List.mem_append.mp hc with hc | hc
    · exact isNumberPart_takeWhile cs c hc
    · exact hrest c hc
  · obtain ⟨c, r, hcr⟩ := List.exists_cons_of_ne_nil hwhole
    have hdigit : isDigit c = true :=
      List.all_eq_true.mp List.all_takeWhile c (hcr ▸ List.mem_cons_self)
    exact ⟨c, r ++ cs.dropWhile isDigit, by rw [← List.cons_append, ← hcr, hcut], hdigit⟩

/-- A numeral begins with a digit or a minus and has nothing in it but what numbers are made of. -/
theorem numeral?_parts {cs : List Char} {n : Numeral} (h : numeral? cs = some n) :
    (∀ c ∈ cs, isNumberPart c = true) ∧ ∃ c r, cs = c :: r ∧ (isDigit c || c = '-') = true := by
  rw [numeral?_eq] at h
  split at h
  next r => exact ⟨List.forall_mem_cons.mpr ⟨rfl, (unsignedNumeral?_parts h).1⟩, '-', r, rfl, rfl⟩
  next =>
    obtain ⟨hparts, c, r, hcs, hdigit⟩ := unsignedNumeral?_parts h
    exact ⟨hparts, c, r, hcs, by rw [hdigit, Bool.true_or]⟩

theorem unsignedNumeral?_numeralIn (negative : Bool) (n : Nat) :
    unsignedNumeral? negative (numeralIn 10 n) = some ⟨negative, numeralIn 10 n, none, none⟩ := by
  have hdigits : ∀ c ∈ numeralIn 10 n, isDigit c = true := (digits?_eq_some.mp (digits?_numeralIn n)).2.1
  have htake : (numeralIn 10 n).takeWhile isDigit = numeralIn 10 n := List.takeWhile_eq_self_iff.mpr hdigits
  have hdrop : (numeralIn 10 n).dropWhile isDigit = [] := List.dropWhile_eq_nil_iff.mpr hdigits
  rw [unsignedNumeral?, htake, hdrop]
  rcases numeralIn_head n with hzero | ⟨d, r, hdr, hd⟩
  · rw [hzero]
    rfl
  · rw [hdr]
    simp [endNumeral?, wholeOk, hd]

theorem numeral?_numeralIn (n : Nat) :
    numeral? (numeralIn 10 n) = some ⟨false, numeralIn 10 n, none, none⟩ := by
  rw [numeral?_eq]
  split
  next r h => exact absurd (h ▸ List.mem_cons_self) (notMem_numeralIn (c := '-') (by decide) n)
  next => exact unsignedNumeral?_numeralIn false n

/-! ## The tokens of a value -/

mutual

def tokens : Json → List Token
  | .list [] => [.openList, .closeList]
  | .list (v :: r) => .openList :: (tokens v ++ moreItems r)
  | .record [] => [.openRecord, .closeRecord]
  | .record ((k, v) :: r) => .openRecord :: .leaf (.text k) :: .colon :: (tokens v ++ moreMembers r)
  | .null => [.leaf .null]
  | .truth b => [.leaf (.truth b)]
  | .number n => [.leaf (.number n)]
  | .text l => [.leaf (.text l)]

/-- What follows an item of a list. -/
def moreItems : List Json → List Token
  | [] => [.closeList]
  | v :: r => .comma :: (tokens v ++ moreItems r)

def moreMembers : List (List UInt8 × Json) → List Token
  | [] => [.closeRecord]
  | (k, v) :: r => .comma :: .leaf (.text k) :: .colon :: (tokens v ++ moreMembers r)

end

mutual

/-- The machine goes on with the value that the tokens stand for. -/
theorem run?_tokens (j : Json) (stack : List Frame) (mayClose : Bool) (rest : List Token) :
    Machine.run? ⟨stack, .value mayClose⟩ (tokens j ++ rest) = Machine.run? ⟨stack, .more j⟩ rest := by
  cases j with
  | null | truth | number | text => rfl
  | list l =>
    cases l with
    | nil => rfl
    | cons v r =>
      show Machine.run? ⟨.list [] :: stack, .value true⟩ (tokens v ++ moreItems r ++ rest) = _
      rw [List.append_assoc, run?_tokens v, run?_moreItems r]
      rfl
  | record ms =>
    match ms with
    | [] => rfl
    | (k, v) :: r =>
      show Machine.run? ⟨.record [] k :: stack, .value false⟩ (tokens v ++ moreMembers r ++ rest) = _
      rw [List.append_assoc, run?_tokens v, run?_moreMembers r]
      rfl

theorem run?_moreItems (l done : List Json) (v : Json) (stack : List Frame) (rest : List Token) :
    Machine.run? ⟨.list done :: stack, .more v⟩ (moreItems l ++ rest) =
      Machine.run? ⟨stack, .more (.list (done.reverse ++ v :: l))⟩ rest := by
  match l with
  | [] =>
    show Machine.run? ⟨stack, .more (.list (v :: done).reverse)⟩ rest = _
    rw [List.reverse_cons]
  | w :: r =>
    show Machine.run? ⟨.list (v :: done) :: stack, .value false⟩ (tokens w ++ moreItems r ++ rest) = _
    rw [List.append_assoc, run?_tokens w, run?_moreItems r, List.reverse_cons, List.append_assoc]
    rfl

theorem run?_moreMembers (l done : List (List UInt8 × Json)) (k : List UInt8) (v : Json)
    (stack : List Frame) (rest : List Token) :
    Machine.run? ⟨.record done k :: stack, .more v⟩ (moreMembers l ++ rest) =
      Machine.run? ⟨stack, .more (.record (done.reverse ++ (k, v) :: l))⟩ rest := by
  match l with
  | [] =>
    show Machine.run? ⟨stack, .more (.record ((k, v) :: done).reverse)⟩ rest = _
    rw [List.reverse_cons]
  | (k', w) :: r =>
    show Machine.run? ⟨.record ((k, v) :: done) k' :: stack, .value false⟩ (tokens w ++ moreMembers r ++ rest) = _
    rw [List.append_assoc, run?_tokens w, run?_moreMembers r, List.reverse_cons, List.append_assoc]
    rfl

end

theorem ofTokens?_tokens (j : Json) : ofTokens? j.tokens = some j := by
  have h := run?_tokens j [] false []
  rw [List.append_nil] at h
  rw [ofTokens?, h]
  rfl


/-! ## The bytes of tokens -/

/-- The byte that a token other than a leaf is. -/
def Token.mark? : Token → Option UInt8
  | .openRecord => some 0x7B
  | .closeRecord => some 0x7D
  | .openList => some 0x5B
  | .closeList => some 0x5D
  | .colon => some 0x3A
  | .comma => some 0x2C
  | .leaf _ => none

def constants : List (Json × List UInt8) :=
  [(.null, [0x6E, 0x75, 0x6C, 0x6C]), (.truth true, [0x74, 0x72, 0x75, 0x65]),
    (.truth false, [0x66, 0x61, 0x6C, 0x73, 0x65])]

abbrev charOf (b : UInt8) : Char := Char.ofNat b.toNat

theorem toNat_charOf (b : UInt8) : (charOf b).toNat = b.toNat := by
  have hvalid : b.toNat.isValidChar := .inl (Nat.lt_trans b.toNat_lt (by decide))
  rw [charOf, Char.ofNat, dif_pos hvalid]
  rfl

theorem charOf_inj {a b : UInt8} (h : charOf a = charOf b) : a = b := by
  rw [← UInt8.toNat_inj, ← toNat_charOf, h, toNat_charOf]

/-- The bytes spell the tokens, with any spaces between them. What could go on with a number or a word
does not follow it. -/
inductive Spells : List Token → List UInt8 → Prop where
  | done : Spells [] []
  | space {ts : List Token} {b : UInt8} {r : List UInt8} (blank : isSpace (charOf b) = true)
      (rest : Spells ts r) : Spells ts (b :: r)
  | mark {t : Token} {ts : List Token} {b : UInt8} {r : List UInt8} (sign : t.mark? = some b)
      (rest : Spells ts r) : Spells (t :: ts) (b :: r)
  | text {l : List UInt8} {ts : List Token} {r : List UInt8} (literal : Literal l) (rest : Spells ts r) :
      Spells (.leaf (.text l) :: ts) (0x22 :: (l ++ 0x22 :: r))
  | number {l : List UInt8} {n : Numeral} {ts : List Token} {r : List UInt8}
      (numeral : numeral? (l.map charOf) = some n) (ends : ∀ b ∈ r.head?, isNumberPart (charOf b) = false)
      (rest : Spells ts r) : Spells (.leaf (.number n.value) :: ts) (l ++ r)
  | word {v : Json} {l : List UInt8} {ts : List Token} {r : List UInt8} (known : (v, l) ∈ constants)
      (ends : ∀ b ∈ r.head?, (charOf b).isAlpha = false) (rest : Spells ts r) :
      Spells (.leaf v :: ts) (l ++ r)

theorem start?_space {c : Char} (h : isSpace c = true) : start? c = some (.between, []) := by
  unfold start?
  split
  case h_8 => rw [if_pos h]
  all_goals cases h

theorem start?_number {c : Char} (h : (isDigit c || c = '-') = true) : start? c = some (.inNumber [c], []) := by
  have hspace : ¬ isSpace c = true := by
    intro hspace
    simp only [isSpace, Bool.or_eq_true, decide_eq_true_eq] at hspace
    rcases hspace with ((rfl | rfl) | rfl) | rfl <;> cases h
  unfold start?
  split
  case h_8 => rw [if_neg hspace, if_pos h]
  all_goals cases h

/-- What ends where it is left is read first, and then what leaves it. -/
theorem tokensFrom_left {m : Mode} {t : Token} (hend : finish? m = some [t]) {r : List UInt8}
    (hleave : ∀ b ∈ r.head?, advance? m b = leave? m (charOf b)) (acc : List Token) :
    tokensFrom m acc r = tokensFrom .between (t :: acc) r := by
  cases r with
  | nil =>
    rw [tokensFrom, hend]
    rfl
  | cons b r =>
    have hstart : advance? .between b = start? (charOf b) := rfl
    rw [tokensFrom, hleave b rfl, tokensFrom, hstart, leave?, hend]
    cases start? (charOf b) with
    | none => rfl
    | some x => simp

theorem tokensFrom_inHex {ds : List UInt8} (filled : ds ≠ [])
    (h : ∀ x ∈ ds, (digit? 16 (charOf x)).isSome = true) (seen : List UInt8) (acc : List Token) (r : List UInt8) :
    tokensFrom (.inHex ds.length seen) acc (ds ++ r) = tokensFrom (.inText (ds.reverse ++ seen)) acc r := by
  induction ds generalizing seen with
  | nil => exact absurd rfl filled
  | cons x ds ih =>
    obtain ⟨hx, hds⟩ := List.forall_mem_cons.mp h
    have hnext : advance? (.inHex (x :: ds).length seen) x =
        if (x :: ds).length ≤ 1 then some (.inText (x :: seen), []) else some (.inHex ds.length (x :: seen), []) :=
      if_neg (by rw [Option.isNone_iff_eq_none, ← ne_eq, ← Option.isSome_iff_ne_none]; exact hx)
    rw [List.cons_append, tokensFrom, hnext]
    cases ds with
    | nil => rfl
    | cons y ds => simpa using ih (by simp) hds (x :: seen)

theorem tokensFrom_inText {l : List UInt8} (h : Literal l) (seen r : List UInt8) (acc : List Token) :
    tokensFrom (.inText seen) acc (l ++ 0x22 :: r) =
      tokensFrom .between (.leaf (.text (seen.reverse ++ l)) :: acc) r := by
  induction h generalizing seen with
  | nil =>
    rw [List.append_nil]
    rfl
  | @plain b l visible quote backslash _ ih =>
    have hquote : charOf b ≠ '"' := fun h => quote (charOf_inj h)
    have hbackslash : charOf b ≠ '\\' := fun h => backslash (charOf_inj h)
    have hnext : advance? (.inText seen) b = some (.inText (b :: seen), []) := by
      show (if charOf b = '"' then _ else if charOf b = '\\' then _ else if b < 0x20 then _ else _) = _
      rw [if_neg hquote, if_neg hbackslash, if_neg (UInt8.not_lt.mpr visible)]
    rw [List.cons_append, tokensFrom, hnext]
    simpa using ih (b :: seen)
  | @short b l escaped _ ih =>
    have hu : charOf b ≠ 'u' := by
      intro hu
      rw [charOf] at hu
      rw [hu] at escaped
      cases escaped
    have hbegin : advance? (.inText seen) 0x5C = some (.inEscape (0x5C :: seen), []) := rfl
    have hnext : advance? (.inEscape (0x5C :: seen)) b = some (.inText (b :: 0x5C :: seen), []) :=
      (if_neg hu).trans (if_pos escaped)
    rw [List.cons_append, List.cons_append, tokensFrom, hbegin]
    dsimp only
    rw [tokensFrom, hnext]
    simpa using ih (b :: 0x5C :: seen)
  | @code a b c d l digits _ ih =>
    have hcode := tokensFrom_inHex (List.cons_ne_nil a [b, c, d]) digits (0x75 :: 0x5C :: seen) acc (l ++ 0x22 :: r)
    show tokensFrom (.inHex 4 (0x75 :: 0x5C :: seen)) acc ([a, b, c, d] ++ (l ++ 0x22 :: r)) = _
    rw [show 4 = [a, b, c, d].length from rfl, hcode]
    simpa using ih (d :: c :: b :: a :: 0x75 :: 0x5C :: seen)

theorem tokensFrom_inNumber {l : List UInt8} (h : ∀ b ∈ l, isNumberPart (charOf b) = true) (seen : List Char)
    (r : List UInt8) (acc : List Token) :
    tokensFrom (.inNumber seen) acc (l ++ r) = tokensFrom (.inNumber ((l.map charOf).reverse ++ seen)) acc r := by
  induction l generalizing seen with
  | nil => rfl
  | cons b l ih =>
    obtain ⟨hb, hl⟩ := List.forall_mem_cons.mp h
    have hnext : advance? (.inNumber seen) b = some (.inNumber (charOf b :: seen), []) := if_pos hb
    rw [List.cons_append, tokensFrom, hnext]
    simpa using ih hl (charOf b :: seen)

theorem tokensFrom_spells {ts : List Token} {bytes : List UInt8} (h : Spells ts bytes) (acc : List Token) :
    tokensFrom .between acc bytes = some (acc.reverse ++ ts) := by
  induction h generalizing acc with
  | done => simp [tokensFrom, finish?]
  | @space ts b r blank rest ih =>
    have hnext : advance? .between b = some (.between, []) := start?_space blank
    rw [tokensFrom, hnext]
    exact ih acc
  | @mark t ts b r sign rest ih =>
    have hnext : advance? .between b = some (.between, [t]) := by
      cases t <;> cases sign <;> rfl
    rw [tokensFrom, hnext]
    simpa using ih (t :: acc)
  | text literal rest ih =>
    rw [tokensFrom]
    show tokensFrom (.inText []) acc _ = _
    rw [tokensFrom_inText literal, ih]
    simp
  | @number l n ts r numeral ends rest ih =>
    obtain ⟨hparts, c, cs, hl, hfirst⟩ := numeral?_parts numeral
    obtain ⟨b, l, rfl, hb, rfl⟩ : ∃ b l', l = b :: l' ∧ charOf b = c ∧ l'.map charOf = cs := by
      cases l with
      | nil => cases hl
      | cons b l => exact ⟨b, l, rfl, (List.cons.inj hl).1, (List.cons.inj hl).2⟩
    have hbegin : advance? .between b = some (.inNumber [charOf b], []) := start?_number (by rwa [← hb] at hfirst)
    have hrest : ∀ b ∈ l, isNumberPart (charOf b) = true := fun b hb =>
      hparts _ (List.mem_map_of_mem (List.mem_cons_of_mem _ hb))
    have hend : finish? (.inNumber ((l.map charOf).reverse ++ [charOf b])) = some [.leaf (.number n.value)] := by
      rw [finish?, List.reverse_append, List.reverse_reverse]
      exact congrArg (Option.map _) numeral
    rw [List.cons_append, tokensFrom, hbegin]
    show tokensFrom (.inNumber [charOf b]) acc (l ++ r) = _
    rw [tokensFrom_inNumber hrest, tokensFrom_left hend fun b hb => if_neg (by simpa using ends b hb), ih]
    simp
  | @word v l ts r known ends rest ih =>
    have hleave (seen : List Char) : ∀ b ∈ r.head?, advance? (.inWord seen) b = leave? (.inWord seen) (charOf b) :=
      fun b hb => if_neg (by simpa using ends b hb)
    have hend : tokensFrom .between acc (l ++ r) = tokensFrom .between (.leaf v :: acc) r := by
      simp only [constants, List.mem_cons, Prod.mk.injEq, List.not_mem_nil, or_false] at known
      rcases known with ⟨rfl, rfl⟩ | ⟨rfl, rfl⟩ | ⟨rfl, rfl⟩
      · exact tokensFrom_left (m := .inWord ['l', 'l', 'u', 'n']) rfl (hleave _) acc
      · exact tokensFrom_left (m := .inWord ['e', 'u', 'r', 't']) rfl (hleave _) acc
      · exact tokensFrom_left (m := .inWord ['e', 's', 'l', 'a', 'f']) rfl (hleave _) acc
    rw [hend, ih]
    simp

/-- Whatever spells a value is read as that value. -/
theorem ofBytes?_spells {j : Json} {bytes : List UInt8} (h : Spells j.tokens bytes) : ofBytes? bytes = some j := by
  rw [ofBytes?, tokensFrom_spells h []]
  exact ofTokens?_tokens j

end Fabric.Json
