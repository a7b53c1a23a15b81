import Fabric.Decimal.Reader
import Fabric.Toml.Value

/-! Scalars of a TOML text. Each reader takes what it reads off the front of the text and gives
back the rest. -/

namespace Fabric.Toml

open Fabric.Text

def isGap (c : Char) : Bool := c = ' ' || c = '\t'

def skipGap (cs : List Char) : List Char := cs.dropWhile isGap

/-- What may stand in a comment or between single quotes: all but controls, save the tab. -/
def isPlain (c : Char) : Bool := c = '\t' || (0x20 ≤ c.toNat && c.toNat ≠ 0x7F)

/-- A line feed, perhaps after a carriage return. -/
def newline? : List Char → Option (List Char)
  | '\n' :: r | '\r' :: '\n' :: r => some r
  | _ => none

/-! ## Texts -/

def scalarValue? (n : Nat) : Option Char :=
  if h : n.isValidChar then some (Char.ofNatAux n h) else none

def hexEscape? (width : Nat) (cs : List Char) : Option (Char × List Char) :=
  if cs.length < width then none
  else do
    let c ← scalarValue? (← digits? 16 (cs.take width))
    some (c, cs.drop width)

/-- The character that an escape stands for, after its backslash. -/
def escape? : List Char → Option (Char × List Char)
  | 'b' :: r => some ('\x08', r)
  | 't' :: r => some ('\t', r)
  | 'n' :: r => some ('\n', r)
  | 'f' :: r => some ('\x0c', r)
  | 'r' :: r => some ('\r', r)
  | '"' :: r => some ('"', r)
  | '\\' :: r => some ('\\', r)
  | 'u' :: r => hexEscape? 4 r
  | 'U' :: r => hexEscape? 8 r
  | _ => none

theorem hexEscape?_length {w : Nat} {cs r : List Char} {c : Char}
    (h : hexEscape? w cs = some (c, r)) : r.length ≤ cs.length := by
  unfold hexEscape? at h
  split at h
  · cases h
  · simp only [Option.bind_eq_bind, Option.bind_eq_some_iff, Option.some.injEq,
      Prod.mk.injEq] at h
    obtain ⟨_, _, _, _, _, rfl⟩ := h
    simp

theorem escape?_length {cs r : List Char} {c : Char} (h : escape? cs = some (c, r)) :
    r.length < cs.length := by
  unfold escape? at h
  split at h
  case h_8 => exact Nat.lt_succ_of_le (hexEscape?_length h)
  case h_9 => exact Nat.lt_succ_of_le (hexEscape?_length h)
  case h_10 => cases h
  all_goals
    simp only [Option.some.injEq, Prod.mk.injEq] at h
    obtain ⟨-, rfl⟩ := h
    simp

/-- The rest of a text between double quotes on one line. -/
def basic? (cs : List Char) : Option (List Char × List Char) :=
  match cs with
  | [] => none
  | '"' :: r => some ([], r)
  | '\\' :: r =>
    match _h : escape? r with
    | some (c, r') => (basic? r').map fun (s, rest) => (c :: s, rest)
    | none => none
  | c :: r => if isPlain c then (basic? r).map fun (s, rest) => (c :: s, rest) else none
termination_by cs.length
decreasing_by
  · have := escape?_length _h
    simp only [List.length_cons]
    omega
  · simp

/-- The rest of a text between single quotes on one line. -/
def literal? : List Char → Option (List Char × List Char)
  | [] => none
  | '\'' :: r => some ([], r)
  | c :: r => if isPlain c then (literal? r).map fun (s, rest) => (c :: s, rest) else none

/-- Does a backslash here stand at the end of its line? Then the text goes on at the next
character that is neither blank nor a line end. -/
def continued? (cs : List Char) : Option (List Char) :=
  (newline? (skipGap cs)).map fun r => r.dropWhile fun c => isGap c || c = '\n' || c = '\r'

theorem newline?_length {cs r : List Char} (h : newline? cs = some r) :
    r.length < cs.length := by
  unfold newline? at h
  split at h
  · cases h; simp
  · cases h; simp only [List.length_cons]; omega
  · cases h

theorem dropWhile_length (p : Char → Bool) (cs : List Char) :
    (cs.dropWhile p).length ≤ cs.length :=
  (List.dropWhile_sublist p).length_le

theorem continued?_length {cs r : List Char} (h : continued? cs = some r) :
    r.length < cs.length := by
  unfold continued? at h
  simp only [Option.map_eq_some_iff] at h
  obtain ⟨s, hs, rfl⟩ := h
  have h1 := newline?_length hs
  have h2 := dropWhile_length isGap cs
  have h3 := dropWhile_length (fun c => isGap c || c = '\n' || c = '\r') s
  unfold skipGap at h1
  omega

/-- The end of a text between triple quotes `q`, with up to two quotes more in front of it. -/
def tripleEnd? (q : Char) : List Char → Option (List Char × List Char)
  | a :: b :: c :: d :: e :: r =>
    if a = q ∧ b = q ∧ c = q then
      if d = q ∧ e = q then some ([q, q], r)
      else if d = q then some ([q], e :: r)
      else some ([], d :: e :: r)
    else none
  | [a, b, c, d] =>
    if a = q ∧ b = q ∧ c = q then (if d = q then some ([q], []) else some ([], [d])) else none
  | [a, b, c] => if a = q ∧ b = q ∧ c = q then some ([], []) else none
  | _ => none

/-- The rest of a text between triple double quotes. -/
def tripleBasic? (cs : List Char) : Option (List Char × List Char) :=
  match tripleEnd? '"' cs with
  | some e => some e
  | none =>
    match cs with
    | [] => none
    | '\\' :: r =>
      match _h : continued? r with
      | some r' => tripleBasic? r'
      | none =>
        match _h : escape? r with
        | some (c, r') => (tripleBasic? r').map fun (s, rest) => (c :: s, rest)
        | none => none
    | c :: r =>
      match _h : newline? (c :: r) with
      | some r' => (tripleBasic? r').map fun (s, rest) => ('\n' :: s, rest)
      | none =>
        if isPlain c then (tripleBasic? r).map fun (s, rest) => (c :: s, rest) else none
termination_by cs.length
decreasing_by
  · have := continued?_length _h
    simp only [List.length_cons]
    omega
  · have := escape?_length _h
    simp only [List.length_cons]
    omega
  · exact newline?_length _h
  · simp

/-- The rest of a text between triple single quotes. -/
def tripleLiteral? (cs : List Char) : Option (List Char × List Char) :=
  match tripleEnd? '\'' cs with
  | some e => some e
  | none =>
    match cs with
    | [] => none
    | c :: r =>
      match _h : newline? (c :: r) with
      | some r' => (tripleLiteral? r').map fun (s, rest) => ('\n' :: s, rest)
      | none =>
        if isPlain c then (tripleLiteral? r).map fun (s, rest) => (c :: s, rest) else none
termination_by cs.length
decreasing_by
  · exact newline?_length _h
  · simp

/-- A line end right behind the opening quotes is no part of the text. -/
def opened (cs : List Char) : List Char := (newline? cs).getD cs

def text? : List Char → Option (List Char × List Char)
  | '"' :: '"' :: '"' :: r => tripleBasic? (opened r)
  | '"' :: r => basic? r
  | '\'' :: '\'' :: '\'' :: r => tripleLiteral? (opened r)
  | '\'' :: r => literal? r
  | _ => none

/-! ## Numbers -/

def isDigit (c : Char) : Bool := (digit? 10 c).isSome

/-- More digits, any of them after one underscore, which does not count. -/
def moreDigits (p : Char → Bool) : List Char → List Char × List Char
  | '_' :: c :: r =>
    if p c then
      let (ds, rest) := moreDigits p r
      (c :: ds, rest)
    else ([], '_' :: c :: r)
  | c :: r =>
    if p c then
      let (ds, rest) := moreDigits p r
      (c :: ds, rest)
    else ([], c :: r)
  | [] => ([], [])

def digitRun? (p : Char → Bool) : List Char → Option (List Char × List Char)
  | c :: r =>
    if p c then
      let (ds, rest) := moreDigits p r
      some (c :: ds, rest)
    else none
  | [] => none

/-- Digits without a needless zero in front. -/
def wholePart? : List Char → Option (List Char × List Char)
  | '0' :: r => some (['0'], r)
  | cs => digitRun? isDigit cs

def sign : List Char → List Char × List Char
  | '+' :: r => (['+'], r)
  | '-' :: r => (['-'], r)
  | cs => ([], cs)

def fraction? : List Char → Option (List Char × List Char)
  | '.' :: r => (digitRun? isDigit r).map fun (ds, rest) => ('.' :: ds, rest)
  | _ => none

def exponent? : List Char → Option (List Char × List Char)
  | c :: r =>
    if c = 'e' ∨ c = 'E' then
      let (s, r) := sign r
      (digitRun? isDigit r).map fun (ds, rest) => ('e' :: s ++ ds, rest)
    else none
  | [] => none

/-- A number with a fraction, an exponent or both; one past the floats is refused. -/
def decimal? (cs : List Char) : Option (Toml × List Char) := do
  let (s, r) := sign cs
  let (front, r) ← wholePart? r
  let (tail, r) ←
    match fraction? r with
    | some (f, r') =>
      match exponent? r' with
      | some (e, r'') => some (f ++ e, r'')
      | none => some (f, r')
    | none => exponent? r
  let x ← Decimal.float? (s ++ front ++ tail)
  if x == Decimal.infinity then none else some (.float x, r)

def named? (cs : List Char) : Option (Toml × List Char) :=
  let (s, r) := sign cs
  let x? := match r with
    | 'i' :: 'n' :: 'f' :: r => some (Decimal.infinity, r)
    | 'n' :: 'a' :: 'n' :: r => some (Decimal.notANumber, r)
    | _ => none
  x?.map fun (x, r) => (.float (if s = ['-'] then -x else x), r)

def based? (base : Nat) (cs : List Char) : Option (Toml × List Char) := do
  let (ds, r) ← digitRun? (fun c => (digit? base c).isSome) cs
  let n ← digits? base ds
  if n ≤ maxI64 then some (.whole n, r) else none

def integer? (cs : List Char) : Option (Toml × List Char) :=
  match cs with
  | '0' :: 'x' :: r => based? 16 r
  | '0' :: 'o' :: r => based? 8 r
  | '0' :: 'b' :: r => based? 2 r
  | _ => do
    let (s, r) := sign cs
    let (ds, r) ← wholePart? r
    let n ← signed? 10 (maxI64 + 1) maxI64 (s ++ ds)
    some (.whole n, r)

/-! ## Moments -/

/-- A number of exactly `width` digits between two bounds. -/
def ranged? (width low high : Nat) (cs : List Char) : Option (Nat × List Char) := do
  let ds := cs.take width
  if ds.length = width ∧ ds.all isDigit then
    let n ← digits? 10 ds
    if low ≤ n ∧ n ≤ high then some (n, cs.drop width) else none
  else none

def mark? (c : Char) (cs : List Char) : Option (List Char) :=
  match cs with
  | x :: r => if x = c then some r else none
  | [] => none

def daysIn (year month : Nat) : Nat :=
  if month = 2 then
    if year % 4 = 0 ∧ (year % 100 ≠ 0 ∨ year % 400 = 0) then 29 else 28
  else if month = 4 ∨ month = 6 ∨ month = 9 ∨ month = 11 then 30
  else 31

def date? (cs : List Char) : Option (List Char) := do
  let (year, r) ← ranged? 4 0 9999 cs
  let (month, r) ← ranged? 2 1 12 (← mark? '-' r)
  let (_, r) ← ranged? 2 1 (daysIn year month) (← mark? '-' r)
  some r

def clock? (cs : List Char) : Option (List Char) := do
  let (_, r) ← ranged? 2 0 23 cs
  let (_, r) ← ranged? 2 0 59 (← mark? ':' r)
  let (_, r) ← ranged? 2 0 60 (← mark? ':' r)
  match r with
  | '.' :: d :: r' => if isDigit d then some (r'.dropWhile isDigit) else some r
  | _ => some r

def offset? : List Char → Option (List Char)
  | 'Z' :: r | 'z' :: r => some r
  | c :: r =>
    if c = '+' ∨ c = '-' then do
      let (_, r) ← ranged? 2 0 23 r
      let (_, r) ← ranged? 2 0 59 (← mark? ':' r)
      some r
    else none
  | [] => none

/-- The clock behind a date, with its offset. -/
def clockOfDay? : List Char → Option (List Char)
  | c :: r =>
    if c = 'T' ∨ c = 't' ∨ c = ' ' then
      (clock? r).map fun r => (offset? r).getD r
    else none
  | [] => none

/-- A date with or without a clock, or a clock alone. -/
def moment? (cs : List Char) : Option (Toml × List Char) :=
  let rest? := match date? cs with
    | some r => some ((clockOfDay? r).getD r)
    | none => clock? cs
  rest?.map fun r => (.moment (String.ofList (cs.take (cs.length - r.length))), r)

/-! ## Any scalar -/

def truth? : List Char → Option (Toml × List Char)
  | 't' :: 'r' :: 'u' :: 'e' :: r => some (.truth true, r)
  | 'f' :: 'a' :: 'l' :: 's' :: 'e' :: r => some (.truth false, r)
  | _ => none

def scalar? (cs : List Char) : Option (Toml × List Char) :=
  let quoted? := (text? cs).map fun (s, r) => (Toml.text (String.ofList s), r)
  quoted?.or ((truth? cs).or ((moment? cs).or ((decimal? cs).or ((named? cs).or (integer? cs)))))

end Fabric.Toml
