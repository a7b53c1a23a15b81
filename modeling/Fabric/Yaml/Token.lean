import Fabric.Text.Utf8
import Fabric.Yaml.Scalar

/-! The tokens of a YAML text. Indentation opens and closes blocks; a scalar turns out to be a
key only when a colon follows it, so places where a key may begin are remembered, and the tokens
that open a mapping are put in front of it afterwards. -/

namespace Fabric.Yaml

open Fabric.Text

inductive Token where
  | version (major minor : Nat)
  | handle (name stem : String)
  | documentStart
  | documentEnd
  | blockSequence
  | blockMapping
  | blockEnd
  | flowSequence
  | flowSequenceEnd
  | flowMapping
  | flowMappingEnd
  | item
  | comma
  | key
  | value
  | alias (name : String)
  | anchor (name : String)
  | tag (handle suffix : String)
  | scalar (text : String) (style : Style)
deriving DecidableEq, Repr

/-- A place where a key may have begun: before which token, and where in the text. A key that
stands where the block's indentation asks for one has to be completed. -/
structure KeyPlace where
  token : Nat
  needed : Bool
  line : Nat
  index : Nat
  column : Nat

structure Lexer where
  cursor : Cursor
  indent : Int
  outer : List Int
  keyAllowed : Bool
  /-- One place at most for each level of brackets, the innermost first. -/
  places : List (Option KeyPlace)
  /-- What was found so far, the last one first. -/
  found : List Token

namespace Lexer

def start (cs : List Char) : Lexer := ⟨.start cs, -1, [], true, [none], []⟩

def inFlow (l : Lexer) : Bool := 1 < l.places.length

def emit (l : Lexer) (t : Token) : Lexer := { l with found := t :: l.found }

/-- Puts a token before the one with the given number. -/
def emitAt (l : Lexer) (n : Nat) (t : Token) : Lexer :=
  let later := l.found.length - n
  { l with found := l.found.take later ++ t :: l.found.drop later }

/-! ## Keys and indentation -/

/-- Forgets a key place that is on an earlier line or too far back. -/
def fresh? (c : Cursor) (p : Option KeyPlace) : Option (Option KeyPlace) :=
  match p with
  | none => some none
  | some k =>
    if k.line < c.line ∨ k.index + 1024 < c.index then
      if k.needed then none else some none
    else some (some k)

def dropStale? (l : Lexer) : Option Lexer :=
  (l.places.mapM (fresh? l.cursor)).map fun ps => { l with places := ps }

/-- Forgets the key place of this level. -/
def dropPlace? (l : Lexer) : Option Lexer :=
  match l.places with
  | [] => some l
  | p :: r => if p.any (·.needed) then none else some { l with places := none :: r }

/-- Remembers that a key may begin here. -/
def markPlace? (l : Lexer) : Option Lexer :=
  if l.keyAllowed then
    match l.dropPlace? with
    | some l =>
      let c := l.cursor
      let needed := !l.inFlow && l.indent = (c.column : Int)
      some { l with places := some ⟨l.found.length, needed, c.line, c.index, c.column⟩ ::
        l.places.drop 1 }
    | none => none
  else some l

def closeTo (column : Int) : Nat → Lexer → Lexer
  | 0, l => l
  | fuel + 1, l =>
    if column < l.indent then
      closeTo column fuel { l.emit .blockEnd with indent := l.outer.headD (-1), outer := l.outer.drop 1 }
    else l

/-- Closes the blocks that are indented more than `column`. -/
def unwind (l : Lexer) (column : Int) : Lexer :=
  if l.inFlow then l else closeTo column (l.outer.length + 1) l

/-- Opens a block before token `n` if `column` is indented more than the block around it. -/
def openBlock (l : Lexer) (column : Nat) (n : Nat) (t : Token) : Lexer :=
  if !l.inFlow && l.indent < (column : Int) then
    { l.emitAt n t with indent := column, outer := l.indent :: l.outer }
  else l

def moveTo (l : Lexer) (c : Cursor) : Lexer := { l with cursor := c }

/-! ## Between tokens -/

/-- Skips blanks, comments and line ends. A tab may not indent where a key may begin. -/
def skipGaps : Nat → Lexer → Lexer
  | 0, l => l
  | fuel + 1, l =>
    let tabs := l.inFlow || !l.keyAllowed
    let c := (l.cursor.skipWhile fun x => x = ' ' || (tabs && x = '\t')).skipComment
    if c.atLineEnd 0 then
      skipGaps fuel { l with cursor := c.nextLine.2, keyAllowed := l.keyAllowed || !l.inFlow }
    else l.moveTo c

/-! ## Directives -/

def word (c : Cursor) : List Char × Cursor :=
  (c.rest.takeWhile isWordChar, c.skipWhile isWordChar)

def versionPart? (c : Cursor) : Option (Nat × Cursor) :=
  let ds := c.rest.takeWhile fun x => (digit? 10 x).isSome
  if ds.length ≤ 9 then (digits? 10 ds).map (·, c.skip ds.length) else none

def isUriChar (c : Char) : Bool :=
  isWordChar c || ";/?:@&=+$.!~*'()%".toList.contains c

def unhex? (a b : Char) : Option UInt8 := (digits? 16 [a, b]).map Nat.toUInt8

/-- The bytes that a URI spells, its percent escapes resolved. -/
def uriBytes? : List Char → Option (List UInt8)
  | [] => some []
  | '%' :: a :: b :: r =>
    match unhex? a b, uriBytes? r with
    | some x, some xs => some (x :: xs)
    | _, _ => none
  | c :: r =>
    if c = '%' then none else (uriBytes? r).map (Utf8.encodeChar c ++ ·)

/-- A URI after `head`, whose first character is left out; the two may not both be empty. -/
def uri? (verbatim : Bool) (head : String) (c : Cursor) : Option (String × Cursor) :=
  let p (x : Char) : Bool := isUriChar x || (verbatim && (x = ',' || x = '[' || x = ']'))
  let cs := c.rest.takeWhile p
  let text := (uriBytes? cs).bind Utf8.decode
  if cs.isEmpty && head.isEmpty then none
  else text.map fun s => (String.ofList (head.toList.drop 1) ++ s, c.skip cs.length)

/-- A tag handle such as `!`, `!!` or `!e!`. -/
def handle? (directive : Bool) (c : Cursor) : Option (String × Cursor) :=
  if !c.sees 0 '!' then none
  else
    let (w, d) := word (c.skip 1)
    if d.sees 0 '!' then some (String.ofList ('!' :: w ++ ['!']), d.skip 1)
    else if directive && !w.isEmpty then none
    else some (String.ofList ('!' :: w), d)

def directive? (c : Cursor) : Option (Token × Cursor) := do
  let (name, c) := word (c.skip 1)
  if name.isEmpty || !c.atGap 0 then none
  let c := c.skipWhile isBlank
  let (t, c) ← match String.ofList name with
    | "YAML" => do
      let (major, c) ← versionPart? c
      if !c.sees 0 '.' then none
      let (minor, c) ← versionPart? (c.skip 1)
      some (Token.version major minor, c)
    | "TAG" => do
      let (h, c) ← handle? true c
      if !c.atBlank 0 then none
      let (stem, c) ← uri? true "" (c.skipWhile isBlank)
      if !c.atGap 0 then none
      some (Token.handle h stem, c)
    | _ => none
  let c := (c.skipWhile isBlank).skipComment
  if c.atEnd || c.atLineEnd 0 then some (t, c.nextLine.2) else none

/-! ## Properties of a node -/

def anchorName? (c : Cursor) : Option (String × Cursor) :=
  let (w, c) := word (c.skip 1)
  let ends := c.atGap 0 || (c.ahead 0).any fun x => "?:,]\x7d%@`".toList.contains x
  if w.isEmpty || !ends then none else some (String.ofList w, c)

def tag? (inFlow : Bool) (c : Cursor) : Option (Token × Cursor) := do
  let (t, c) ←
    if c.sees 1 '<' then do
      let (suffix, c) ← uri? true "" (c.skip 2)
      if !c.sees 0 '>' then none
      some (Token.tag "" suffix, c.skip 1)
    else do
      let (h, d) ← handle? false c
      if 1 < h.length && h.toList.getLast? = some '!' then
        let (suffix, d) ← uri? false "" d
        some (Token.tag h suffix, d)
      else
        let (suffix, d) ← uri? false h d
        some (if suffix = "" then Token.tag "" "!" else Token.tag "!" suffix, d)
  if c.atGap 0 || (inFlow && c.sees 0 ',') then some (t, c) else none

/-! ## One token -/

def flowOpening (l : Lexer) (t : Token) : Option Lexer := do
  let l ← l.markPlace?
  some { l.emit t with cursor := l.cursor.skip 1, keyAllowed := true, places := none :: l.places }

def flowClosing (l : Lexer) (t : Token) : Option Lexer := do
  let l ← l.dropPlace?
  let places := if l.inFlow then l.places.drop 1 else l.places
  some { l.emit t with cursor := l.cursor.skip 1, keyAllowed := false, places }

def boundary (l : Lexer) (t : Token) : Option Lexer := do
  let l ← (l.unwind (-1)).dropPlace?
  some { l.emit t with cursor := l.cursor.skip 3, keyAllowed := false }

def item (l : Lexer) : Option Lexer := do
  if !l.inFlow && !l.keyAllowed then none
  let l ← (l.openBlock l.cursor.column l.found.length .blockSequence).dropPlace?
  some { l.emit .item with cursor := l.cursor.skip 1, keyAllowed := true }

def explicitKey (l : Lexer) : Option Lexer := do
  if !l.inFlow && !l.keyAllowed then none
  let l ← (l.openBlock l.cursor.column l.found.length .blockMapping).dropPlace?
  some { l.emit .key with cursor := l.cursor.skip 1, keyAllowed := !l.inFlow }

def valueMark (l : Lexer) : Option Lexer :=
  match l.places with
  | some p :: r =>
    let l := (l.emitAt p.token .key).openBlock p.column p.token .blockMapping
    some { l.emit .value with cursor := l.cursor.skip 1, keyAllowed := false, places := none :: r }
  | _ =>
    if !l.inFlow && !l.keyAllowed then none
    else
      let l := l.openBlock l.cursor.column l.found.length .blockMapping
      some { l.emit .value with cursor := l.cursor.skip 1, keyAllowed := !l.inFlow }

/-- A token that may begin a key, read by `read?`. -/
def mayBeKey (l : Lexer) (read? : Cursor → Option (Token × Cursor)) : Option Lexer := do
  let l ← l.markPlace?
  let (t, c) ← read? l.cursor
  some { l.emit t with cursor := c, keyAllowed := false }

def blockScalar (l : Lexer) (fold : Bool) : Option Lexer := do
  let l ← l.dropPlace?
  let (s, c) ← block? fold l.indent l.cursor
  some { l.emit (.scalar s (if fold then .folded else .literal)) with cursor := c, keyAllowed := true }

def plainScalar (l : Lexer) : Option Lexer := do
  let l ← l.markPlace?
  let (s, ended, c) ← plain? l.inFlow l.indent l.cursor
  some { l.emit (.scalar s .plain) with cursor := c, keyAllowed := ended }

def isIndicator (c : Char) : Bool := "-?:,[]\x7b\x7d#&*!|>'\"%@`".toList.contains c

def startsPlain (l : Lexer) (x : Char) : Bool :=
  !(isIndicator x || isBlank x) || (x = '-' && !l.cursor.atBlank 1) ||
    (!l.inFlow && (x = '?' || x = ':') && !l.cursor.atGap 1)

/-- The next token; the cursor is at neither a gap nor the end. -/
def token? (l : Lexer) (x : Char) : Option Lexer :=
  let c := l.cursor
  if c.column = 0 && x = '%' then do
    let l ← (l.unwind (-1)).dropPlace?
    let (t, c) ← directive? c
    some { l.emit t with cursor := c, keyAllowed := false }
  else if c.atMark '-' then l.boundary .documentStart
  else if c.atMark '.' then l.boundary .documentEnd
  else if x = '[' then l.flowOpening .flowSequence
  else if x = '\x7b' then l.flowOpening .flowMapping
  else if x = ']' then l.flowClosing .flowSequenceEnd
  else if x = '\x7d' then l.flowClosing .flowMappingEnd
  else if x = ',' then
    l.dropPlace?.map fun l => { l.emit .comma with cursor := c.skip 1, keyAllowed := true }
  else if x = '-' && c.atGap 1 then l.item
  else if x = '?' && (l.inFlow || c.atGap 1) then l.explicitKey
  else if x = ':' && (l.inFlow || c.atGap 1) then l.valueMark
  else if x = '*' then l.mayBeKey fun c => (anchorName? c).map fun (n, c) => (.alias n, c)
  else if x = '&' then l.mayBeKey fun c => (anchorName? c).map fun (n, c) => (.anchor n, c)
  else if x = '!' then l.mayBeKey (tag? l.inFlow)
  else if x = '|' && !l.inFlow then l.blockScalar false
  else if x = '>' && !l.inFlow then l.blockScalar true
  else if x = '\'' then l.mayBeKey fun c => (quoted? '\'' c).map fun (s, c) => (.scalar s .single, c)
  else if x = '"' then l.mayBeKey fun c => (quoted? '"' c).map fun (s, c) => (.scalar s .double, c)
  else if l.startsPlain x then l.plainScalar
  else none

def run? : Nat → Lexer → Option Lexer
  | 0, _ => none
  | fuel + 1, l =>
    match (skipGaps (fuel + 1) l).dropStale? with
    | none => none
    | some l =>
      match l.cursor.rest with
      | [] => (l.unwind (-1)).dropPlace?
      | x :: _ =>
        match (l.unwind l.cursor.column).token? x with
        | some l => run? fuel l
        | none => none

end Lexer

/-- Characters that a YAML text may hold. -/
def isPrintable (c : Char) : Bool :=
  let n := c.toNat
  c = '\t' || c = '\n' || c = '\r' || (0x20 ≤ n && n ≤ 0x7E) || n = 0x85 ||
  (0xA0 ≤ n && n ≤ 0xD7FF) || (0xE000 ≤ n && n ≤ 0xFFFD) || (0x10000 ≤ n && n ≤ 0x10FFFF)

def tokens? (s : String) : Option (List Token) :=
  let cs := s.toList
  if cs.all isPrintable then
    (Lexer.run? (cs.length + 2) (.start cs)).map fun l => l.found.reverse
  else none

end Fabric.Yaml
