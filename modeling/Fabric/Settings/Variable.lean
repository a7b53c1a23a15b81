import Fabric.Text.Blank
import Fabric.Toml.Scalar

/-! The value that the text of an environment variable stands for: a truth value, a number, a
quoted text, a list or a table where the whole text is one, and else the text itself. -/

namespace Fabric.Settings.Variable

open Fabric.Text

def isGap (c : Char) : Bool := c = ' ' || c = '\t' || c = '\n' || c = '\x0c' || c = '\r'

def skipGap (cs : List Char) : List Char := cs.dropWhile isGap

/-- The marks of lists and tables, which end a bare value. -/
def isMark (c : Char) : Bool := ",\x7b\x7d[]".toList.contains c

/-- A value without quotes: a float needs a point, and a whole number fits in 64 bits. -/
def bare (cs : List Char) : Toml :=
  let cs := trim cs
  let float? := if cs.contains '.' then Decimal.float? cs else none
  let whole? := signed? 10 (maxI64 + 1) maxU64 cs
  match float?, whole? with
  | some x, _ => .float x
  | none, some n => .whole n
  | none, none => .text (String.ofList cs)

/-- Between quotes a tab and all but controls may stand, and the escapes of TOML. -/
def quoted? : List Char → Option (List Char × List Char)
  | '"' :: r => Toml.basic? r
  | _ => none

def isKeyChar (c : Char) : Bool := c.isAlphanum || c = '_' || c = '-'

def key? (cs : List Char) : Option (String × List Char) :=
  match quoted? cs with
  | some (s, r) => some (String.ofList s, r)
  | none =>
    let s := cs.takeWhile isKeyChar
    if s.isEmpty then none else some (String.ofList s, cs.dropWhile isKeyChar)

mutual

def value? : Nat → List Char → Option (Toml × List Char)
  | 0, _ => none
  | fuel + 1, cs => do
    let (v, r) ← match skipGap cs with
      | 't' :: 'r' :: 'u' :: 'e' :: r => some (Toml.truth true, r)
      | 'f' :: 'a' :: 'l' :: 's' :: 'e' :: r => some (.truth false, r)
      | '\x7b' :: r => (pairs? fuel r).map fun (l, r) => (.table l, r)
      | '[' :: r => (items? fuel r).map fun (l, r) => (.list l, r)
      | '"' :: r => (quoted? ('"' :: r)).map fun (s, r) => (.text (String.ofList s), r)
      | '\'' :: c :: '\'' :: r => some (.text (String.ofList [c]), r)
      | '\'' :: _ => none
      | cs => some (bare (cs.takeWhile (!isMark ·)), cs.dropWhile (!isMark ·))
    some (v, skipGap r)

def items? : Nat → List Char → Option (List Toml × List Char)
  | 0, _ => none
  | fuel + 1, cs =>
    match cs with
    | ']' :: r => some ([], r)
    | _ => do
      let (v, r) ← value? fuel cs
      match r with
      | ',' :: r =>
        let (vs, r) ← items? fuel r
        some (v :: vs, r)
      | ']' :: r => some ([v], r)
      | _ => none

def pairs? : Nat → List Char → Option (List (String × Toml) × List Char)
  | 0, _ => none
  | fuel + 1, cs =>
    match cs with
    | '\x7d' :: r => some ([], r)
    | _ => do
      let (k, r) ← key? (skipGap cs)
      let r ← Toml.mark? '=' (skipGap r)
      let (v, r) ← value? fuel r
      match r with
      | ',' :: r =>
        let (ps, r) ← pairs? fuel r
        some ((k, v) :: ps, r)
      | '\x7d' :: r => some ([(k, v)], r)
      | _ => none

end

/-- Each list or table opened takes a character, and so does each part after the first. -/
def value (s : String) : Toml :=
  match value? (2 * s.length + 2) s.toList with
  | some (v, []) => v
  | _ => .text s

end Fabric.Settings.Variable
