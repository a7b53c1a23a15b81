import Fabric.Yaml.Cursor

/-! The text of a scalar in each of its styles. Between two lines of a plain, quoted or folded
scalar one line end becomes a blank and further ones stay. Every reader is given fuel for the
characters left, of which each round uses at least one. -/

namespace Fabric.Yaml

open Fabric.Text

inductive Style where
  | plain
  | single
  | double
  | literal
  | folded
deriving DecidableEq, Repr

/-- Blanks and line ends between two words. Once a line has ended, blanks count no more. -/
structure Gap where
  blanks : List Char
  lineEnded : Bool
  first : List Char
  others : List Char

namespace Gap

def none : Gap := ⟨[], false, [], []⟩

def escaped : Gap := ⟨[], true, [], []⟩

/-- What the gap puts between the words. -/
def text (g : Gap) : List Char :=
  if g.lineEnded then
    if g.first.head? = some '\n' then (if g.others.isEmpty then [' '] else g.others)
    else g.first ++ g.others
  else g.blanks

def takeLineEnd (g : Gap) (c : Cursor) : Gap × Cursor :=
  let (x, c) := c.nextLine
  if g.lineEnded then ({ g with others := g.others ++ x }, c)
  else ({ g with blanks := [], lineEnded := true, first := x }, c)

end Gap

/-- The gap at the cursor. In a plain scalar a tab may not stand for indentation. -/
def gap? (indent : Option Int) : Nat → Gap → Cursor → Option (Gap × Cursor)
  | 0, _, _ => none
  | fuel + 1, g, c =>
    if c.atBlank 0 then
      if g.lineEnded && indent.any ((c.column : Int) < ·) && c.sees 0 '\t' then none
      else
        let g := if g.lineEnded then g else { g with blanks := g.blanks ++ (c.rest.take 1) }
        gap? indent fuel g (c.skip 1)
    else if c.atLineEnd 0 then
      let (g, c) := g.takeLineEnd c
      gap? indent fuel g c
    else some (g, c)

/-! ## Quoted scalars -/

def escapeDenotes? (c : Char) : Option Char :=
  match c with
  | '0' => some '\x00'
  | 'a' => some '\x07'
  | 'b' => some '\x08'
  | 't' | '\t' => some '\t'
  | 'n' => some '\n'
  | 'v' => some '\x0b'
  | 'f' => some '\x0c'
  | 'r' => some '\r'
  | 'e' => some '\x1b'
  | ' ' => some ' '
  | '"' => some '"'
  | '/' => some '/'
  | '\\' => some '\\'
  | 'N' => some '\x85'
  | '_' => some '\u00a0'
  | 'L' => some '\u2028'
  | 'P' => some '\u2029'
  | _ => none

def escapeWidth? (c : Char) : Option Nat :=
  match c with
  | 'x' => some 2
  | 'u' => some 4
  | 'U' => some 8
  | _ => none

/-- The character after a backslash, and how many characters it takes. -/
def escape? (r : List Char) : Option (Char × Nat) :=
  match r with
  | [] => none
  | e :: r =>
    match escapeWidth? e with
    | some w =>
      let ds := r.take w
      match digits? 16 ds with
      | some n =>
        if ds.length = w ∧ n.isValidChar then some (Char.ofNat n, w + 1) else none
      | none => none
    | none => (escapeDenotes? e).map (·, 1)

/-- Characters up to a gap or the closing quote, in front of the reversed `acc`. The last part
says whether an escaped line end was met. -/
def quotedWord? (quote : Char) :
    Nat → List Char → Cursor → Option (List Char × Bool × Cursor)
  | 0, _, _ => none
  | fuel + 1, acc, c =>
    if c.atGap 0 then some (acc, false, c)
    else match c.rest with
    | [] => some (acc, false, c)
    | x :: r =>
      if quote = '\'' ∧ x = '\'' ∧ r.head? = some '\'' then
        quotedWord? quote fuel ('\'' :: acc) (c.skip 2)
      else if x = quote then some (acc, false, c)
      else if quote = '"' ∧ x = '\\' then
        if c.atLineEnd 1 then some (acc, true, (c.skip 1).nextLine.2)
        else match escape? r with
          | some (y, n) => quotedWord? quote fuel (y :: acc) (c.skip (n + 1))
          | none => none
      else quotedWord? quote fuel (x :: acc) (c.skip 1)

/-- The rest of a quoted scalar after its opening quote. -/
def quotedFrom? (quote : Char) : Nat → List Char → Cursor → Option (List Char × Cursor)
  | 0, _, _ => none
  | fuel + 1, acc, c =>
    if c.atBoundary || c.atEnd then none
    else match quotedWord? quote (fuel + 1) acc c with
    | none => none
    | some (acc, lineEscaped, c) =>
      if c.sees 0 quote then some (acc.reverse, c.skip 1)
      else match gap? none (fuel + 1) (if lineEscaped then .escaped else .none) c with
        | none => none
        | some (g, c) => quotedFrom? quote fuel (g.text.reverse ++ acc) c

def quoted? (quote : Char) (c : Cursor) : Option (String × Cursor) :=
  (quotedFrom? quote (c.rest.length + 2) [] (c.skip 1)).map fun (cs, c) => (String.ofList cs, c)

/-! ## Plain scalars -/

def isFlowMark (c : Char) : Bool :=
  c = ',' || c = '[' || c = ']' || c = '\x7b' || c = '\x7d'

/-- The characters of a plain word, in front of the reversed `acc`. -/
def plainWord? (inFlow : Bool) : Nat → List Char → Cursor → Option (List Char × Cursor)
  | 0, _, _ => none
  | fuel + 1, acc, c =>
    if c.atGap 0 then some (acc, c)
    else match c.rest with
    | [] => some (acc, c)
    | x :: r =>
      if inFlow && x = ':' && r.head?.any (fun y => isFlowMark y || y = '?') then none
      else if (x = ':' && c.atGap 1) || (inFlow && isFlowMark x) then some (acc, c)
      else plainWord? inFlow fuel (x :: acc) (c.skip 1)

/-- The rest of a plain scalar. The gap before it is kept only if a word follows; the last part
says whether the gap at its end holds a line end. -/
def plainFrom? (inFlow : Bool) (indent : Int) :
    Nat → List Char → Gap → Cursor → Option (List Char × Bool × Cursor)
  | 0, _, _, _ => none
  | fuel + 1, acc, g, c =>
    if c.atBoundary || c.sees 0 '#' then some (acc, g.lineEnded, c)
    else match plainWord? inFlow (fuel + 1) [] c with
    | none => none
    | some (word, c) =>
      let (acc, g) := if word.isEmpty then (acc, g) else (word ++ g.text.reverse ++ acc, Gap.none)
      if !(c.atBlank 0 || c.atLineEnd 0) then some (acc, g.lineEnded, c)
      else match gap? (some indent) (fuel + 1) g c with
        | none => none
        | some (g, c) =>
          if !inFlow && (c.column : Int) < indent then some (acc, g.lineEnded, c)
          else plainFrom? inFlow indent fuel acc g c

/-- A plain scalar at the cursor; also whether its end is on a later line than its last word. -/
def plain? (inFlow : Bool) (indent : Int) (c : Cursor) : Option (String × Bool × Cursor) :=
  (plainFrom? inFlow (indent + 1) (c.rest.length + 2) [] .none c).map
    fun (acc, ended, c) => (String.ofList acc.reverse, ended, c)

/-! ## Block scalars -/

inductive Chomp where
  | strip
  | clip
  | keep
deriving DecidableEq, Repr

def chomp? (c : Cursor) : Option Chomp :=
  if c.sees 0 '+' then some .keep else if c.sees 0 '-' then some .strip else none

def indentDigit? (c : Cursor) : Option Nat := (c.ahead 0).bind (digit? 10)

/-- The chomping and the indentation a header asks for, in either order. -/
def header? (c : Cursor) : Option (Chomp × Option Nat × Cursor) :=
  let (chomp, digit, c) :=
    match chomp? c, indentDigit? c with
    | some h, _ =>
      let c := c.skip 1
      match indentDigit? c with
      | some d => (h, some d, c.skip 1)
      | none => (h, none, c)
    | none, some d =>
      let c := c.skip 1
      match chomp? c with
      | some h => (h, some d, c.skip 1)
      | none => (.clip, some d, c)
    | none, none => (.clip, none, c)
  if digit = some 0 then none else some (chomp, digit, c)

/-- Indentation and empty lines; gives the line ends and the greatest column seen. -/
def emptyLines? (indent : Option Nat) :
    Nat → Nat → List Char → Cursor → Option (Nat × List Char × Cursor)
  | 0, _, _, _ => none
  | fuel + 1, deepest, ends, c =>
    let c := c.skip (min (c.rest.takeWhile (· = ' ')).length
      (match indent with
        | some i => i - c.column
        | none => c.rest.length))
    let deepest := max deepest c.column
    if indent.all (c.column < ·) && c.sees 0 '\t' then none
    else if c.atLineEnd 0 then
      let (x, c) := c.nextLine
      emptyLines? indent fuel deepest (ends ++ x) c
    else some (deepest, ends, c)

/-- The lines of a block scalar. `pending` is the line end after the line before, and `empties`
those of the empty lines since. -/
def blockLines? (fold : Bool) (indent : Nat) (chomp : Chomp) :
    Nat → List Char → List Char → List Char → Bool → Cursor → Option (List Char × Cursor)
  | 0, _, _, _, _, _ => none
  | fuel + 1, acc, pending, empties, indented, c =>
    if c.column = indent && !c.atEnd then
      let here := c.atBlank 0
      let joined :=
        if fold && pending.head? = some '\n' && !indented && !here then
          (if empties.isEmpty then [' '] else [])
        else pending
      let line := c.rest.takeWhile (!isLineEnd ·)
      let acc := acc ++ joined ++ empties ++ line
      let (pending, c) := (c.skip line.length).nextLine
      match emptyLines? (some indent) (fuel + 1) 0 [] c with
      | some (_, empties, c) => blockLines? fold indent chomp fuel acc pending empties here c
      | none => none
    else
      let acc := if chomp = .strip then acc else acc ++ pending
      some (if chomp = .keep then acc ++ empties else acc, c)

/-- A literal or folded scalar, whose parent is indented by `parent`. -/
def block? (fold : Bool) (parent : Int) (c : Cursor) : Option (String × Cursor) := do
  let fuel := c.rest.length + 2
  let (chomp, digit, c) ← header? (c.skip 1)
  let c := (c.skipWhile isBlank).skipComment
  if !(c.atEnd || c.atLineEnd 0) then none
  let c := c.nextLine.2
  let asked := digit.map fun d => if 0 ≤ parent then parent.toNat + d else d
  let (deepest, empties, c) ← emptyLines? asked fuel 0 [] c
  let indent := asked.getD (max (max deepest (parent + 1).toNat) 1)
  let (cs, c) ← blockLines? fold indent chomp fuel [] [] empties false c
  some (String.ofList cs, c)

end Fabric.Yaml
