import Fabric.Toml.Scalar
import Fabric.Toml.Tree

/-! Reading a TOML text, line by line: a header, a key with its value, or nothing, and then perhaps
a comment. -/

namespace Fabric.Toml

open Fabric.Text

/-- How deep values nest, and how many names a key has, at most one less. -/
def depthLimit : Nat := 80

def skipComment : List Char → List Char
  | '#' :: r => r.dropWhile isPlain
  | cs => cs

/-- Nothing up to the end of the line but a comment. -/
def lineTail? (cs : List Char) : Option (List Char) :=
  match skipComment (skipGap cs) with
  | [] => some []
  | cs => newline? cs

/-- Blanks, line ends and comments between the parts of a list. -/
def skipLines : Nat → List Char → List Char
  | 0, cs => cs
  | fuel + 1, cs =>
    match newline? (skipComment (skipGap cs)) with
    | some r => skipLines fuel r
    | none => skipGap cs

def skipAll (cs : List Char) : List Char := skipLines cs.length cs

/-! ## Keys -/

def isBareKey (c : Char) : Bool := c.isAlphanum || c = '_' || c = '-'

def name? (cs : List Char) : Option (String × List Char) :=
  match cs with
  | '"' :: r => (basic? r).map fun (s, r) => (String.ofList s, r)
  | '\'' :: r => (literal? r).map fun (s, r) => (String.ofList s, r)
  | _ =>
    let s := cs.takeWhile isBareKey
    if s.isEmpty then none else some (String.ofList s, cs.dropWhile isBareKey)

/-- Names with points between them. -/
def names? : Nat → List Char → Option (List String × List Char)
  | 0, _ => none
  | fuel + 1, cs => do
    let (s, r) ← name? (skipGap cs)
    match skipGap r with
    | '.' :: r =>
      let (path, r) ← names? fuel r
      some (s :: path, r)
    | r => some ([s], r)

def key? (cs : List Char) : Option (List String × List Char) :=
  (names? cs.length cs).filter fun (path, _) => path.length < depthLimit

/-! ## Values -/

mutual

def valueFrom? (depth : Nat) : Nat → List Char → Option (Toml × List Char)
  | 0, _ => none
  | fuel + 1, cs =>
    match cs with
    | '[' :: r =>
      if depth ≤ 1 then none
      else (itemsFrom? (depth - 1) fuel (skipAll r)).map fun (l, r) => (.list l, r)
    | '\x7b' :: r =>
      if depth ≤ 1 then none
      else
        match skipGap r with
        | '\x7d' :: r => some (.table [], r)
        | r => do
          let (pairs, r) ← pairsFrom? (depth - 1) fuel r
          some ((← inlineTable? pairs), r)
    | _ => scalar? cs

/-- The items up to the closing bracket; a comma may stand behind the last. -/
def itemsFrom? (depth : Nat) : Nat → List Char → Option (List Toml × List Char)
  | 0, _ => none
  | fuel + 1, cs =>
    match cs with
    | ']' :: r => some ([], r)
    | _ => do
      let (v, r) ← valueFrom? depth fuel cs
      match skipAll r with
      | ',' :: r =>
        let (vs, r) ← itemsFrom? depth fuel (skipAll r)
        some (v :: vs, r)
      | ']' :: r => some ([v], r)
      | _ => none

/-- The pairs up to the closing brace, on one line. -/
def pairsFrom? (depth : Nat) : Nat → List Char → Option (List (List String × Toml) × List Char)
  | 0, _ => none
  | fuel + 1, cs => do
    let (path, r) ← key? cs
    let r ← mark? '=' r
    let (v, r) ← valueFrom? depth fuel (skipGap r)
    match skipGap r with
    | ',' :: r =>
      let (pairs, r) ← pairsFrom? depth fuel r
      some ((path, v) :: pairs, r)
    | '\x7d' :: r => some ([(path, v)], r)
    | _ => none

end

/-- Each value opened takes a character, and so does each item or pair after the first. -/
def value? (cs : List Char) : Option (Toml × List Char) :=
  valueFrom? depthLimit (2 * cs.length + 2) cs

/-! ## Lines -/

/-- What has been read: all tables, and the path of the open one. -/
structure Reading where
  root : Entries
  opened : List String

namespace Reading

def start : Reading := ⟨[], []⟩

/-- Takes in what stands on the line before its tail. -/
def line? (x : Reading) (cs : List Char) : Option (Reading × List Char) :=
  match skipGap cs with
  | '[' :: '[' :: r => do
    let (path, r) ← key? r
    let r ← mark? ']' (← mark? ']' r)
    some (⟨← openNext path x.root, path⟩, r)
  | '[' :: r => do
    let (path, r) ← key? r
    let r ← mark? ']' r
    some (⟨← openTable path x.root, path⟩, r)
  | r =>
    if r.isEmpty || r.head? = some '#' || (newline? r).isSome then some (x, r)
    else do
      let (path, r) ← key? r
      let r ← mark? '=' r
      let (v, r) ← value? (skipGap r)
      let root ← within false (assign path v) x.opened .byHeader x.root
      some ({ x with root }, r)

/-- A line takes at least one character, unless it is the last. -/
def lines? : Nat → Reading → List Char → Option Reading
  | 0, _, _ => none
  | fuel + 1, x, cs => do
    let (x, r) ← x.line? cs
    match ← lineTail? r with
    | [] => some x
    | r => lines? fuel x r

end Reading

/-- The table of a text; a byte order mark in front of it is no part of it. -/
def ofText? (s : String) : Option (List (String × Toml)) :=
  let cs := match s.toList with
    | '\ufeff' :: r => r
    | cs => cs
  (Reading.lines? (cs.length + 1) .start cs).map fun x => entryValues x.root

end Fabric.Toml
