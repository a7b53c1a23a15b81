import Fabric.Decimal.Notation
import Fabric.Text.Utf8

/-! JSON values. A text is kept as the literal between its quotes, since its escapes may denote
nothing and a key that stands for a number has to be written without them. -/

namespace Fabric

inductive JsonNumber where
  | natural (n : Nat)
  | negative (n : Nat)
  | float (x : Float)
deriving Repr

inductive Json where
  | null
  | truth (b : Bool)
  | number (n : JsonNumber)
  | text (literal : List UInt8)
  | list (items : List Json)
  | record (members : List (List UInt8 × Json))
deriving Repr, Inhabited

namespace Json

open Fabric.Text

/-! ## Literals -/

def shortEscape? (c : Char) : Option Char :=
  match c with
  | '"' => some '"'
  | '\\' => some '\\'
  | '\x08' => some 'b'
  | '\x0c' => some 'f'
  | '\n' => some 'n'
  | '\r' => some 'r'
  | '\t' => some 't'
  | _ => none

/-- Quotes, backslashes and control characters are escaped, all else is written as it is. -/
def escape (c : Char) : List Char :=
  match shortEscape? c with
  | some e => ['\\', e]
  | none => if c.toNat < 0x20 then '\\' :: 'u' :: hexPadded 4 c.toNat else [c]

def literalOf (s : String) : List UInt8 :=
  Utf8.encode (String.ofList (s.toList.flatMap escape))

def unescapeShort? (c : Char) : Option Char :=
  match c with
  | '"' => some '"'
  | '\\' => some '\\'
  | '/' => some '/'
  | 'b' => some '\x08'
  | 'f' => some '\x0c'
  | 'n' => some '\n'
  | 'r' => some '\r'
  | 't' => some '\t'
  | _ => none

def hex4? (a b c d : Char) : Option Nat := digits? 16 [a, b, c, d]

def isHigh (n : Nat) : Bool := 0xD800 ≤ n && n < 0xDC00
def isLow (n : Nat) : Bool := 0xDC00 ≤ n && n < 0xE000

/-- Replaces escapes by what they denote. Half of a surrogate pair alone denotes nothing. -/
def unescapeOnto (acc : List Char) : List Char → Option (List Char)
  | [] => some acc.reverse
  | '\\' :: 'u' :: a :: b :: c :: d :: r =>
    match hex4? a b c d with
    | none => none
    | some n =>
      if isHigh n then
        match r with
        | '\\' :: 'u' :: e :: f :: g :: h :: r =>
          match hex4? e f g h with
          | none => none
          | some m =>
            if isLow m then
              unescapeOnto (Char.ofNat (0x10000 + (n - 0xD800) * 0x400 + (m - 0xDC00)) :: acc) r
            else none
        | _ => none
      else if isLow n then none
      else unescapeOnto (Char.ofNat n :: acc) r
  | '\\' :: e :: r =>
    match unescapeShort? e with
    | some c => unescapeOnto (c :: acc) r
    | none => none
  | ['\\'] => none
  | c :: r => unescapeOnto (c :: acc) r

/-- The text that a literal denotes, if it denotes one. -/
def denoted? (literal : List UInt8) : Option String :=
  ((Utf8.decode literal).bind fun s => unescapeOnto [] s.toList).map String.ofList

/-! ## Building values -/

def ofText (s : String) : Json := .text (literalOf s)

def ofNat (n : Nat) : Json := .number (.natural n)

def ofInt (i : Int) : Json :=
  match i with
  | .ofNat n => .number (.natural n)
  | .negSucc n => .number (.negative (n + 1))

/-- A float that is no number, or infinite, is written as null. -/
def ofFloat (x : Float) : Json := if Decimal.isFinite x then .number (.float x) else .null

def ofOption {α : Type} (f : α → Json) : Option α → Json
  | some a => f a
  | none => .null

def ofMembers (ms : List (String × Json)) : Json :=
  .record (ms.map fun (k, v) => (literalOf k, v))

end Json
end Fabric
