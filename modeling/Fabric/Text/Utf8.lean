/-! UTF-8: the bytes of a text and the text of bytes. Decoding is strict: overlong forms,
surrogates and values past the last code point denote nothing. -/

namespace Fabric.Text.Utf8

/-- The six payload bits of a continuation byte. -/
def continuation? (b : UInt8) : Option Nat :=
  if 0x80 ≤ b.toNat ∧ b.toNat < 0xC0 then some (b.toNat - 0x80) else none

def scalar? (least n : Nat) : Option Char :=
  if h : least ≤ n ∧ n.isValidChar then some (Char.ofNatAux n h.2) else none

def decodeOnto (acc : List Char) : List UInt8 → Option (List Char)
  | [] => some acc.reverse
  | a :: r =>
    let n := a.toNat
    if n < 0x80 then decodeOnto (Char.ofNat n :: acc) r
    else if n < 0xC2 then none
    else if n < 0xE0 then
      match r with
      | b :: r =>
        match continuation? b with
        | some x =>
          match scalar? 0x80 ((n - 0xC0) * 64 + x) with
          | some c => decodeOnto (c :: acc) r
          | none => none
        | none => none
      | [] => none
    else if n < 0xF0 then
      match r with
      | b :: c :: r =>
        match continuation? b, continuation? c with
        | some x, some y =>
          match scalar? 0x800 (((n - 0xE0) * 64 + x) * 64 + y) with
          | some c => decodeOnto (c :: acc) r
          | none => none
        | _, _ => none
      | _ => none
    else if n < 0xF5 then
      match r with
      | b :: c :: d :: r =>
        match continuation? b, continuation? c, continuation? d with
        | some x, some y, some z =>
          match scalar? 0x10000 ((((n - 0xF0) * 64 + x) * 64 + y) * 64 + z) with
          | some c => decodeOnto (c :: acc) r
          | none => none
        | _, _, _ => none
      | _ => none
    else none

/-- The text that the bytes encode, if they encode one. -/
def decode (bytes : List UInt8) : Option String := (decodeOnto [] bytes).map String.ofList

def encodeChar (c : Char) : List UInt8 :=
  let n := c.toNat
  if n < 0x80 then [n.toUInt8]
  else if n < 0x800 then [(0xC0 + n / 64).toUInt8, (0x80 + n % 64).toUInt8]
  else if n < 0x10000 then
    [(0xE0 + n / 4096).toUInt8, (0x80 + n / 64 % 64).toUInt8, (0x80 + n % 64).toUInt8]
  else
    [(0xF0 + n / 262144).toUInt8, (0x80 + n / 4096 % 64).toUInt8, (0x80 + n / 64 % 64).toUInt8,
      (0x80 + n % 64).toUInt8]

def encode (s : String) : List UInt8 := s.toList.flatMap encodeChar

end Fabric.Text.Utf8
