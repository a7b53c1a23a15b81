import Fabric.Document
import Fabric.Text.Blank
import Fabric.Text.Utf8
import Fabric.Yaml.Reading

/-! The text of a document as YAML in block form. A text stays plain where a reader would take it
for the same text; else it is quoted, or a literal block when it has several lines. A block is a
list of lines from its own margin; what is inside it stands two columns further right, except that
a list under a key starts at the margin of the key. -/

namespace Fabric.Yaml

open Fabric.Text

/-! ## Scalars -/

/-- What may stand unescaped: of the first plane all but controls and the byte order mark. -/
def isBare (c : Char) : Bool :=
  let n := c.toNat
  n = 0xA || (0x20 ≤ n && n ≤ 0x7E) || (0xA0 ≤ n && n ≤ 0xFFFD && n ≠ 0xFEFF)

/-- Is there a blank, a break or nothing ahead? -/
def atGap (cs : List Char) : Bool :=
  cs.head?.all fun c => isBlank c || c = '\x00' || isLineEnd c

/-- A mark that means something else at the start of a plain scalar. -/
def opensOther : List Char → Bool
  | '-' :: '-' :: '-' :: _ | '.' :: '.' :: '.' :: _ => true
  | c :: r =>
    "#,[]\x7b\x7d&*!|>'\"%@`".toList.contains c ||
      ((c = '?' || c = ':' || c = '-') && atGap r)
  | [] => false

/-- A mark that would end a plain scalar: a colon before a gap, a hash sign after one. -/
def endsPlain : List Char → Bool
  | _ :: ':' :: r => atGap r || endsPlain (':' :: r)
  | c :: '#' :: r => atGap [c] || endsPlain ('#' :: r)
  | _ :: r => endsPlain r
  | [] => false

/-- Do two neighbours stand somewhere in the text? -/
def hasPair (p q : Char → Bool) : List Char → Bool
  | a :: b :: r => (p a && q b) || hasPair p q (b :: r)
  | _ => false

def isSpace (c : Char) : Bool := c = ' '

inductive Quoting where
  | plain
  | single
  | double
  | literal
deriving DecidableEq, Repr

/-- Truth values of older readers. -/
def truthWords : List String :=
  ["y", "Y", "yes", "Yes", "YES", "n", "N", "no", "No", "NO", "true", "True", "TRUE", "false",
    "False", "FALSE", "on", "On", "ON", "off", "Off", "OFF"]

/-- What is wanted for a text, before it is known to be possible. -/
def wanted (s : String) : Quoting :=
  if truthWords.contains s then .single
  else if s.toList.contains '\n' then .literal
  else match form s with
    | .text => if hasNeedlessZero s.toList then .single else .plain
    | _ => .single

def canBePlain (cs : List Char) : Bool :=
  let atEdge (o : Option Char) : Bool := o.any fun c => isSpace c || isLineEnd c
  !(opensOther cs || endsPlain cs || atEdge cs.head? || atEdge cs.getLast? ||
    cs.any isLineEnd || !cs.all isBare)

def canBeSingle (cs : List Char) : Bool :=
  !(hasPair isLineEnd isSpace cs || hasPair isSpace isLineEnd cs || !cs.all isBare)

def canBeLiteral (cs : List Char) : Bool :=
  !(cs.getLast?.any isSpace || hasPair isSpace isLineEnd cs || !cs.all isBare)

/-- How a text is written, on one line if it has to be. -/
def quoting (oneLine : Bool) (s : String) : Quoting :=
  let cs := s.toList
  if oneLine && cs.any isLineEnd then .double
  else match wanted s with
    | .plain => if canBePlain cs then .plain else if canBeSingle cs then .single else .double
    | .single => if canBeSingle cs then .single else .double
    | .literal => if canBeLiteral cs && !oneLine then .literal else .double
    | .double => .double

def hexUpper (width n : Nat) : List Char := (hexPadded width n).map Char.toUpper

def escape (c : Char) : List Char :=
  let n := c.toNat
  match c with
  | '\x00' => ['\\', '0']
  | '\x07' => ['\\', 'a']
  | '\x08' => ['\\', 'b']
  | '\t' => ['\\', 't']
  | '\n' => ['\\', 'n']
  | '\x0b' => ['\\', 'v']
  | '\x0c' => ['\\', 'f']
  | '\r' => ['\\', 'r']
  | '\x1b' => ['\\', 'e']
  | '"' => ['\\', '"']
  | '\\' => ['\\', '\\']
  | '\u0085' => ['\\', 'N']
  | '\u2028' => ['\\', 'L']
  | '\u2029' => ['\\', 'P']
  | _ =>
    if isBare c then [c]
    else if n ≤ 0xFF then '\\' :: 'x' :: hexUpper 2 n
    else if n ≤ 0xFFFF then '\\' :: 'u' :: hexUpper 4 n
    else '\\' :: 'U' :: hexUpper 8 n

def singleQuoted (cs : List Char) : String :=
  "'" ++ String.ofList (cs.flatMap fun c => if c = '\'' then ['\'', '\''] else [c]) ++ "'"

def doubleQuoted (cs : List Char) : String := "\"" ++ String.ofList (cs.flatMap escape) ++ "\""

/-- A literal block: its head tells how it starts and ends where the lines alone do not. -/
def literalLines (cs : List Char) : List String :=
  let start := if cs.head?.any fun c => isSpace c || isLineEnd c then "2" else ""
  let ls := (lines cs).map String.ofList
  match cs.reverse with
  | '\n' :: '\n' :: _ | ['\n'] => ("|" ++ start ++ "+") :: ls.dropLast
  | '\n' :: _ => ("|" ++ start) :: ls.dropLast
  | _ => ("|" ++ start ++ "-") :: ls

def textLines (oneLine : Bool) (s : String) : List String :=
  match quoting oneLine s with
  | .plain => [s]
  | .single => [singleQuoted s.toList]
  | .double => [doubleQuoted s.toList]
  | .literal => literalLines s.toList

/-! ## Blocks -/

/-- Two columns further right; an empty line stays empty. -/
def shift (line : String) : String := if line = "" then "" else "  " ++ line

/-- The lines behind a mark of two columns. -/
def behind (mark : String) : List String → List String
  | [] => []
  | l :: r => (mark ++ l) :: r.map shift

/-- A key that stands before its colon on one line; others get a line of their own. -/
def isShortKey (s : String) : Bool := !s.toList.any isLineEnd && (Utf8.encode s).length ≤ 128

/-- Is the document written behind its key on the same line? -/
def isInline : Doc → Bool
  | .list (_ :: _) | .record (_ :: _) => false
  | _ => true

def isList : Doc → Bool
  | .list _ => true
  | _ => false

/-- A value of several lines under its key. -/
def under (key : String) (d : Doc) (ls : List String) : List String :=
  if isInline d then behind (key ++ ": ") ls
  else (key ++ ":") :: (if isList d then ls else ls.map shift)

def entry (key : DocKey) (d : Doc) (ls : List String) : List String :=
  match key with
  | .number n => under (numeral n) d ls
  | .text s =>
    if isShortKey s then under (join "" (textLines true s)) d ls
    else behind "? " (textLines false s) ++ behind ": " ls

mutual

def blockLines : Doc → List String
  | .null => ["null"]
  | .truth b => [if b then "true" else "false"]
  | .number n => [numeral n]
  | .float x => [Decimal.text Decimal.yaml x]
  | .text s => textLines false s
  | .list [] => ["[]"]
  | .record [] => ["\x7b\x7d"]
  | .list (d :: r) => behind "- " (blockLines d) ++ itemLines r
  | .record ((k, d) :: r) => entry k d (blockLines d) ++ memberLines r

def itemLines : List Doc → List String
  | [] => []
  | d :: r => behind "- " (blockLines d) ++ itemLines r

def memberLines : List (DocKey × Doc) → List String
  | [] => []
  | (k, d) :: r => entry k d (blockLines d) ++ memberLines r

end

def render (d : Doc) : String := join "" ((blockLines d).map (· ++ "\n"))

end Fabric.Yaml
