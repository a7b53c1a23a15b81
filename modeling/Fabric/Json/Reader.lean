import Fabric.Json.Value

/-! Reading JSON. Bytes are cut into tokens, and a machine with a stack of open lists and records
builds the value from the tokens, so that nesting has no limit. What stands inside the quotes of
a text need not be valid UTF-8 here; only its escapes are checked for their form. -/

namespace Fabric.Json

open Fabric.Text

inductive Token where
  | openRecord
  | closeRecord
  | openList
  | closeList
  | colon
  | comma
  | leaf (v : Json)

/-! ## Numbers -/

/-- `significand · 10^exponent` by floating arithmetic: one product or quotient with an exact
power of ten, in steps of 308 when it is very small. `none` when it is too big. -/
def scaleFloat (x : Float) (exponent : Int) : Nat → Option Float
  | 0 => some x
  | fuel + 1 =>
    if exponent.natAbs ≤ 308 then
      let power := Decimal.ofScaled 1 1 exponent.natAbs
      if exponent < 0 then some (x / power)
      else if Decimal.isFinite (x * power) then some (x * power) else none
    else if x == 0 then some x
    else if 0 ≤ exponent then none
    else scaleFloat (x / Decimal.ofScaled 1 1 308) (exponent + 308) fuel

/-- Takes digits while the significand stays in 64 bits; the second part counts the digits left. -/
def takeDigits (acc : Nat) : List Char → Nat × Nat
  | [] => (acc, 0)
  | c :: r =>
    let next := acc * 10 + (digit? 10 c).getD 0
    if next ≤ maxU64 then takeDigits next r else (acc, r.length + 1)

/-- The float written as `whole.fraction e exponent`. A digit that would take the significand past
64 bits counts only for its place, and after the point not at all. -/
def floatOf? (whole fraction : List Char) (exponent : Int) : Option Float :=
  let (head, dropped) := takeDigits 0 whole
  let (sig, left) := takeDigits head fraction
  let exponent := exponent + dropped - (fraction.length - left : Nat)
  let limit : Int := 2147483647
  if limit < exponent then (if sig = 0 then some 0 else none)
  else if exponent < -limit then some 0
  else scaleFloat (Decimal.ofRatio sig 1) exponent (sig.log2 + 8)

def isDigit (c : Char) : Bool := '0' ≤ c && c ≤ '9'

/-- Sign, digits, fraction and exponent of a number in the grammar. -/
structure Numeral where
  negative : Bool
  whole : List Char
  fraction : Option (List Char)
  exponent : Option Int

def exponent? (cs : List Char) : Option Int :=
  match cs with
  | '-' :: r => (digits? 10 r).map fun n => -(n : Int)
  | '+' :: r => (digits? 10 r).map Int.ofNat
  | _ => (digits? 10 cs).map Int.ofNat

def numeral? (cs : List Char) : Option Numeral :=
  let (negative, cs) := match cs with
    | '-' :: r => (true, r)
    | _ => (false, cs)
  let whole := cs.takeWhile isDigit
  let rest := cs.dropWhile isDigit
  let (fraction, rest) := match rest with
    | '.' :: r => (some (r.takeWhile isDigit), r.dropWhile isDigit)
    | _ => (none, rest)
  let wholeOk := match whole with
    | [] => false
    | '0' :: _ :: _ => false
    | _ => true
  if !wholeOk || fraction == some [] then none
  else match rest with
    | [] => some ⟨negative, whole, fraction, none⟩
    | c :: r =>
      if c = 'e' ∨ c = 'E' then (exponent? r).map fun e => ⟨negative, whole, fraction, some e⟩
      else none

/-- A whole number of at most 64 bits is kept exactly; any other number is a float, and one too
big for a float is infinite. -/
def Numeral.value (n : Numeral) : JsonNumber :=
  let size := (digits? 10 n.whole).getD 0
  let float := JsonNumber.float
    (Decimal.signed n.negative
      ((floatOf? n.whole (n.fraction.getD []) (n.exponent.getD 0)).getD Decimal.infinity))
  match n.fraction, n.exponent with
  | none, none =>
    if n.negative then
      if 0 < size ∧ size ≤ maxI64 + 1 then .negative size else float
    else if size ≤ maxU64 then .natural size else float
  | _, _ => float

/-! ## Tokens -/

inductive Mode where
  | between
  | inText (seen : List UInt8)
  | inEscape (seen : List UInt8)
  | inHex (left : Nat) (seen : List UInt8)
  | inNumber (seen : List Char)
  | inWord (seen : List Char)

def isSpace (c : Char) : Bool := c = ' ' || c = '\n' || c = '\t' || c = '\r'

def isNumberPart (c : Char) : Bool :=
  isDigit c || c = '-' || c = '+' || c = '.' || c = 'e' || c = 'E'

/-- The token that a byte outside texts stands for or begins. -/
def start? (c : Char) : Option (Mode × List Token) :=
  match c with
  | '\x7b' => some (.between, [.openRecord])
  | '\x7d' => some (.between, [.closeRecord])
  | '[' => some (.between, [.openList])
  | ']' => some (.between, [.closeList])
  | ':' => some (.between, [.colon])
  | ',' => some (.between, [.comma])
  | '"' => some (.inText [], [])
  | _ =>
    if isSpace c then some (.between, [])
    else if isDigit c || c = '-' then some (.inNumber [c], [])
    else if c.isAlpha then some (.inWord [c], [])
    else none

/-- The token that ends where the mode is left. -/
def finish? : Mode → Option (List Token)
  | .between => some []
  | .inNumber seen => (numeral? seen.reverse).map fun n => [.leaf (.number n.value)]
  | .inWord seen =>
    match String.ofList seen.reverse with
    | "null" => some [.leaf .null]
    | "true" => some [.leaf (.truth true)]
    | "false" => some [.leaf (.truth false)]
    | _ => none
  | _ => none

def leave? (m : Mode) (c : Char) : Option (Mode × List Token) :=
  match finish? m, start? c with
  | some a, some (next, b) => some (next, a ++ b)
  | _, _ => none

def advance? (m : Mode) (b : UInt8) : Option (Mode × List Token) :=
  let c := Char.ofNat b.toNat
  match m with
  | .between => start? c
  | .inText seen =>
    if c = '"' then some (.between, [.leaf (.text seen.reverse)])
    else if c = '\\' then some (.inEscape (b :: seen), [])
    else if b < 0x20 then none
    else some (.inText (b :: seen), [])
  | .inEscape seen =>
    if c = 'u' then some (.inHex 4 (b :: seen), [])
    else if (unescapeShort? c).isSome then some (.inText (b :: seen), [])
    else none
  | .inHex left seen =>
    if (digit? 16 c).isNone then none
    else if left ≤ 1 then some (.inText (b :: seen), [])
    else some (.inHex (left - 1) (b :: seen), [])
  | .inNumber seen => if isNumberPart c then some (.inNumber (c :: seen), []) else leave? m c
  | .inWord seen => if c.isAlpha then some (.inWord (c :: seen), []) else leave? m c

/-- The tokens of the bytes, in front of the reversed `acc`. -/
def tokensFrom (m : Mode) (acc : List Token) : List UInt8 → Option (List Token)
  | [] => (finish? m).map fun ts => (ts.reverse ++ acc).reverse
  | b :: r =>
    match advance? m b with
    | some (next, ts) => tokensFrom next (ts.reverse ++ acc) r
    | none => none

/-! ## The machine -/

inductive Frame where
  | list (done : List Json)
  | record (done : List (List UInt8 × Json)) (key : List UInt8)

inductive Expect where
  /-- A value; after an opening bracket the list may also close. -/
  | value (mayClose : Bool)
  /-- A key; after an opening brace the record may also close. -/
  | key (done : List (List UInt8 × Json)) (mayClose : Bool)
  | colon (done : List (List UInt8 × Json)) (key : List UInt8)
  /-- What follows the value just read. -/
  | more (v : Json)

structure Machine where
  stack : List Frame
  expect : Expect

def Machine.step? (m : Machine) (t : Token) : Option Machine :=
  match m.expect, t with
  | .value _, .leaf v => some ⟨m.stack, .more v⟩
  | .value _, .openList => some ⟨.list [] :: m.stack, .value true⟩
  | .value _, .openRecord => some ⟨m.stack, .key [] true⟩
  | .value true, .closeList =>
    match m.stack with
    | .list done :: r => some ⟨r, .more (.list done.reverse)⟩
    | _ => none
  | .key done _, .leaf (.text k) => some ⟨m.stack, .colon done k⟩
  | .key done true, .closeRecord => some ⟨m.stack, .more (.record done.reverse)⟩
  | .colon done k, .colon => some ⟨.record done k :: m.stack, .value false⟩
  | .more v, .comma =>
    match m.stack with
    | .list done :: r => some ⟨.list (v :: done) :: r, .value false⟩
    | .record done k :: r => some ⟨r, .key ((k, v) :: done) false⟩
    | [] => none
  | .more v, .closeList =>
    match m.stack with
    | .list done :: r => some ⟨r, .more (.list (v :: done).reverse)⟩
    | _ => none
  | .more v, .closeRecord =>
    match m.stack with
    | .record done k :: r => some ⟨r, .more (.record ((k, v) :: done).reverse)⟩
    | _ => none
  | _, _ => none

def Machine.run? (m : Machine) : List Token → Option Machine
  | [] => some m
  | t :: r => (m.step? t).bind fun m => m.run? r

def ofTokens? (ts : List Token) : Option Json :=
  match Machine.run? ⟨[], .value false⟩ ts with
  | some ⟨[], .more v⟩ => some v
  | _ => none

/-- The value that the bytes spell, with nothing but spaces around it. -/
def ofBytes? (bytes : List UInt8) : Option Json :=
  (tokensFrom .between [] bytes).bind ofTokens?

end Fabric.Json
