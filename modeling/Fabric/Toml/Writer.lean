import Fabric.Document
import Fabric.Text.Blank

/-! A flat document as a TOML text: a line for each member that has a value. A text goes between
double quotes if nothing in it needs an escape, else between single quotes; the triple forms come
next, and only a text that fits nowhere is escaped. -/

namespace Fabric.Toml

open Fabric.Text

inductive Quotes where
  | basic
  | literal
  | tripleBasic
  | tripleLiteral
deriving DecidableEq, Repr

/-- The length of the longest run of `q`, after a run of `n`. -/
def longestRun (q : Char) : Nat → List Char → Nat
  | n, [] => n
  | n, c :: r => if c = q then longestRun q (n + 1) r else max n (longestRun q 0 r)

/-- A control that no form can hold without an escape. -/
def needsEscape (c : Char) : Bool :=
  (c.toNat < 0x20 && c ≠ '\t' && c ≠ '\n') || c.toNat = 0x7F

def quotesFor (cs : List Char) : Quotes :=
  let doubles := longestRun '"' 0 cs
  let singles := longestRun '\'' 0 cs
  let controls := cs.any needsEscape
  let multi := cs.contains '\n'
  let slash := cs.contains '\\'
  if !(controls || slash || multi) && doubles = 0 then .basic
  else if !(controls || multi) && singles = 0 then .literal
  else if !(controls || slash) && doubles ≤ 2 then .tripleBasic
  else if !controls && singles ≤ 2 then .tripleLiteral
  else if multi then .tripleBasic
  else .basic

def escapeControl (c : Char) : List Char :=
  match c with
  | '\x08' => ['\\', 'b']
  | '\t' => ['\\', 't']
  | '\n' => ['\\', 'n']
  | '\x0c' => ['\\', 'f']
  | '\r' => ['\\', 'r']
  | '\\' => ['\\', '\\']
  | _ =>
    if c.toNat < 0x20 || c.toNat = 0x7F then
      '\\' :: 'u' :: (hexPadded 4 c.toNat).map Char.toUpper
    else [c]

/-- Escapes what stands between double quotes: in the triple form a line feed stays, and of a run
of quotes each third is escaped; `n` quotes stand right before. -/
def escapeFrom (triple : Bool) (n : Nat) : List Char → List Char
  | [] => []
  | '"' :: r =>
    if triple && n < 2 then '"' :: escapeFrom triple (n + 1) r
    else '\\' :: '"' :: escapeFrom triple 0 r
  | c :: r => (if triple && c = '\n' then [c] else escapeControl c) ++ escapeFrom triple 0 r

def quoted (s : String) : String :=
  let cs := s.toList
  let start := if cs.contains '\n' then "\n" else ""
  match quotesFor cs with
  | .basic => "\"" ++ String.ofList (escapeFrom false 0 cs) ++ "\""
  | .literal => "'" ++ s ++ "'"
  | .tripleBasic => "\"\"\"" ++ start ++ String.ofList (escapeFrom true 0 cs) ++ "\"\"\""
  | .tripleLiteral => "'''" ++ start ++ s ++ "'''"

/-- A value on one line. A number past 64 bits with a sign cannot be written, nor can anything
that is made of parts. -/
def scalarText? : Doc → Option String
  | .truth b => some (if b then "true" else "false")
  | .number n => if n ≤ maxI64 then some (numeral n) else none
  | .float x => some (Decimal.text Decimal.toml x)
  | .text s => some (quoted s)
  | .null | .list _ | .record _ => none

def line? (key : DocKey) (d : Doc) : Option String :=
  match d with
  | .null => some ""
  | _ => (scalarText? d).map fun t => key.label ++ " = " ++ t ++ "\n"

/-- The lines of a record whose keys need no quotes. -/
def lines? : Doc → Option String
  | .record ms => (ms.mapM fun (k, d) => line? k d).map (join "")
  | _ => none

end Fabric.Toml
