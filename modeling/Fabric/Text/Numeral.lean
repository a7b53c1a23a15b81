/-! Numerals: reading whole numbers with a bound, and writing them. A numeral is one optional
plus sign and at least one digit; leading zeros are allowed, blanks and separators are not. -/

namespace Fabric.Text

def digit? (base : Nat) (c : Char) : Option Nat :=
  let n := c.toNat
  let d :=
    if 0x30 ≤ n ∧ n ≤ 0x39 then some (n - 0x30)
    else if 0x41 ≤ n ∧ n ≤ 0x5A then some (n - 0x41 + 10)
    else if 0x61 ≤ n ∧ n ≤ 0x7A then some (n - 0x61 + 10)
    else none
  d.filter (· < base)

/-- The value of a run of digits after `acc`. -/
def digitsFrom (base acc : Nat) : List Char → Option Nat
  | [] => some acc
  | c :: r =>
    match digit? base c with
    | some d => digitsFrom base (acc * base + d) r
    | none => none

def digits? (base : Nat) : List Char → Option Nat
  | [] => none
  | c :: r => digitsFrom base 0 (c :: r)

/-- An unsigned numeral in `base` of at most `limit`. -/
def unsigned? (base limit : Nat) (cs : List Char) : Option Nat :=
  let body := match cs with
    | '+' :: r => r
    | _ => cs
  (digits? base body).filter (· ≤ limit)

/-- A signed numeral in `base` from `-low` to `high`. -/
def signed? (base low high : Nat) (cs : List Char) : Option Int :=
  match cs with
  | '-' :: r => (digits? base r).bind fun n => if n ≤ low then some (-(n : Int)) else none
  | _ => (unsigned? base high cs).map Int.ofNat

def maxU16 : Nat := 65535
def maxU32 : Nat := 4294967295
def maxU64 : Nat := 18446744073709551615
def maxI64 : Nat := 9223372036854775807

def u16? (cs : List Char) : Option UInt16 := (unsigned? 10 maxU16 cs).map Nat.toUInt16
def u32? (cs : List Char) : Option UInt32 := (unsigned? 10 maxU32 cs).map Nat.toUInt32
def u64? (cs : List Char) : Option UInt64 := (unsigned? 10 maxU64 cs).map Nat.toUInt64

def digitChar (n : Nat) : Char :=
  if n < 10 then Char.ofNat (0x30 + n) else Char.ofNat (0x61 + (n - 10))

/-- Digits of `n`, most significant first, in front of `acc`. The fuel bounds the digit count. -/
def digitsOnto (base : Nat) : Nat → Nat → List Char → List Char
  | 0, _, acc => acc
  | fuel + 1, n, acc =>
    if n < base then digitChar n :: acc
    else digitsOnto base fuel (n / base) (digitChar (n % base) :: acc)

/-- A number has at most as many digits as its binary length plus one. -/
def numeralIn (base n : Nat) : List Char := digitsOnto base (n.log2 + 1) n []

def numeral (n : Nat) : String := String.ofList (numeralIn 10 n)

def hexNumeral (n : Nat) : String := "0x" ++ String.ofList (numeralIn 16 n)

/-- Digits with zeros in front up to `width`. -/
def padded (width n : Nat) : String :=
  let ds := numeralIn 10 n
  String.ofList (List.replicate (width - ds.length) '0' ++ ds)

/-- Hexadecimal digits with zeros in front up to `width`. -/
def hexPadded (width n : Nat) : List Char :=
  let ds := numeralIn 16 n
  List.replicate (width - ds.length) '0' ++ ds

end Fabric.Text
