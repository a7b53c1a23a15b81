import Fabric.Text.Blank
import Fabric.Text.Case
import Fabric.Text.Numeral
import Fabric.Text.Utf8
import Fabric.Url.Label

/-! Hosts of a URL in their normal form: a name in lower case, four decimal numbers, or eight
hexadecimal numbers in brackets with the longest run of zeros left out. -/

namespace Fabric

inductive UrlFault where
  | relative
  | emptyHost
  | badPort
  | badAddress
  | badLongAddress
  | badHostCharacter
  | badName
deriving DecidableEq, Repr

def UrlFault.message : UrlFault → String
  | relative => "relative URL without a base"
  | emptyHost => "empty host"
  | badPort => "invalid port number"
  | badAddress => "invalid IPv4 address"
  | badLongAddress => "invalid IPv6 address"
  | badHostCharacter => "invalid domain character"
  | badName => "invalid international domain name"

namespace Url

open Fabric.Text

/-! ## Percent encoding -/

def percent (b : UInt8) : List Char := '%' :: (hexPadded 2 b.toNat).map Char.toUpper

def isControl (c : Char) : Bool := c.toNat < 0x20 || 0x7E < c.toNat

/-- Encodes the controls, what is not ASCII, and the characters of `special`. -/
def percentEncode (special : String) (cs : List Char) : String :=
  String.ofList (cs.flatMap fun c =>
    if isControl c || special.toList.contains c then (Utf8.encodeChar c).flatMap percent else [c])

def percentDecode : List UInt8 → List UInt8
  | [] => []
  | 0x25 :: a :: b :: r =>
    match digits? 16 [Char.ofNat a.toNat, Char.ofNat b.toNat] with
    | some n => n.toUInt8 :: percentDecode r
    | none => 0x25 :: percentDecode (a :: b :: r)
  | b :: r => b :: percentDecode r

/-! ## Addresses -/

/-- A part of an address, which may be octal or hexadecimal. -/
def addressPart? (cs : List Char) : Option Nat :=
  match cs with
  | [] => none
  | '0' :: 'x' :: r | '0' :: 'X' :: r => if r.isEmpty then some 0 else digits? 16 r
  | '0' :: c :: r => digits? 8 (c :: r)
  | _ => digits? 10 cs

def dropLastEmpty (parts : List (List Char)) : List (List Char) :=
  if parts.getLast? = some [] then parts.dropLast else parts

/-- Does a name end like an address? Such a name has to be one. -/
def endsInNumber (name : List Char) : Bool :=
  match (dropLastEmpty (splitAt (· == '.') name)).getLast? with
  | none => false
  | some l => (!l.isEmpty && l.all Char.isDigit) || (addressPart? l).isSome

/-- All parts but the last are bytes; the last one fills the bytes that remain. -/
def address? (name : List Char) : Option Nat := do
  let parts := dropLastEmpty (splitAt (· == '.') name)
  let ns ← parts.mapM addressPart?
  let tail ← ns.getLast?
  let heads := ns.dropLast
  if 3 < heads.length || heads.any (255 < ·) || Nat.pow 256 (4 - heads.length) ≤ tail then none
  else
    let high := heads.foldl (fun n h => n * 256 + h) 0
    some (high * Nat.pow 256 (4 - heads.length) + tail)

def addressText (n : Nat) : String :=
  join "." ([n / 16777216, n / 65536 % 256, n / 256 % 256, n % 256].map numeral)

/-- A decimal byte without needless zeros. -/
def byte? (cs : List Char) : Option Nat :=
  match cs with
  | '0' :: _ :: _ => none
  | _ => (digits? 10 cs).filter (· < 256)

/-- The groups that an item between colons stands for: one, or two when it is dotted. -/
def groups? (mayDot : Bool) (cs : List Char) : Option (List Nat) :=
  match splitAt (· == '.') cs with
  | [_] => if cs.length ≤ 4 then (digits? 16 cs).map fun n => [n] else none
  | [a, b, c, d] =>
    if mayDot then do
      some [(← byte? a) * 256 + (← byte? b), (← byte? c) * 256 + (← byte? d)]
    else none
  | _ => none

/-- Groups with colons between them; no text is no group. -/
def side? (mayDot : Bool) (cs : List Char) : Option (List Nat) :=
  if cs.isEmpty then some []
  else
    let items := splitAt (· == ':') cs
    let last := items.length - 1
    (items.zipIdx.mapM fun (x, i) => groups? (mayDot && i = last) x).map List.flatten

/-- The text before and after the first double colon. -/
def cutGap? : List Char → Option (List Char × List Char)
  | ':' :: ':' :: r => some ([], r)
  | c :: r => (cutGap? r).map fun (a, b) => (c :: a, b)
  | [] => none

/-- The eight groups of a long address; a double colon stands for all that are missing. -/
def longAddress? (cs : List Char) : Option (List Nat) :=
  match cutGap? cs with
  | none => (side? true cs).filter (·.length = 8)
  | some (a, b) => do
    let a ← side? false a
    let b ← side? true b
    if 7 < a.length + b.length then none
    else some (a ++ List.replicate (8 - (a.length + b.length)) 0 ++ b)

/-- Runs of zeros as start and length. -/
def zeroRuns (i : Nat) : List Nat → List (Nat × Nat)
  | [] => []
  | n :: r =>
    match zeroRuns (i + 1) r with
    | (j, len) :: runs =>
      if n = 0 then (if j = i + 1 then (i, len + 1) :: runs else (i, 1) :: (j, len) :: runs)
      else (j, len) :: runs
    | [] => if n = 0 then [(i, 1)] else []

/-- The first longest run of at least two zeros. -/
def longestRun? (groups : List Nat) : Option (Nat × Nat) :=
  (zeroRuns 0 groups).foldl (fun best run =>
    if 2 ≤ run.2 && (best.all fun (b : Nat × Nat) => b.2 < run.2) then some run else best) none

def groupsText (groups : List Nat) : String :=
  join ":" (groups.map fun n => String.ofList (numeralIn 16 n))

def longAddressText (groups : List Nat) : String :=
  match longestRun? groups with
  | none => groupsText groups
  | some (i, len) => groupsText (groups.take i) ++ "::" ++ groupsText (groups.drop (i + len))

def bracketed (cs : List Char) : Except UrlFault String :=
  if cs.getLast? = some ']' then
    match longAddress? cs.dropLast with
    | some g => .ok ("[" ++ longAddressText g ++ "]")
    | none => .error .badLongAddress
  else .error .badLongAddress

/-! ## Names -/

def forbidden : String := " #/:<>?@[\\]^|\x00\t\n\x0d"

def forbiddenInName (c : Char) : Bool :=
  c.toNat < 0x20 || c.toNat = 0x7F || ("%`\x7b\x7d" ++ forbidden).toList.contains c

/-- The characters that one character of a name stands for. Full-width forms are narrowed, full
stops of other scripts are dots, and marks that nobody sees are left out. -/
def nameChar (c : Char) : List Char :=
  let n := c.toNat
  if n = 0xAD ∨ n = 0x200B ∨ n = 0x2060 ∨ n = 0xFEFF then []
  else if n = 0x3002 ∨ n = 0xFF61 then ['.']
  else if 0xFF01 ≤ n ∧ n ≤ 0xFF5E then [lowerChar (Char.ofNat (n - 0xFEE0))]
  else [lowerChar c]

def nameInAscii (cs : List Char) : List Char :=
  (join "." ((splitAt (· == '.') cs).map fun l => String.ofList (Label.encode l))).toList

/-- The normal form of a name or address in a URL whose scheme knows hosts. -/
def hostText (cs : List Char) : Except UrlFault String :=
  match cs with
  | '[' :: r => bracketed r
  | _ =>
    match Utf8.decode (percentDecode (Utf8.encode (String.ofList cs))) with
    | none => .error .badName
    | some s =>
      let name := nameInAscii (s.toList.flatMap nameChar)
      if name.any forbiddenInName then .error .badName
      else if name.isEmpty then .error .emptyHost
      else if endsInNumber name then
        match address? name with
        | some n => .ok (addressText n)
        | none => .error .badAddress
      else .ok (String.ofList name)

/-- The normal form under any other scheme. -/
def plainHostText (cs : List Char) : Except UrlFault String :=
  match cs with
  | '[' :: r => bracketed r
  | _ =>
    if cs.any fun c => forbidden.toList.contains c then .error .badHostCharacter
    else .ok (percentEncode "" cs)

end Url
end Fabric
