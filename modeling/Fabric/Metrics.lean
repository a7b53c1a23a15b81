import Fabric.Decimal.Reader
import Fabric.Table
import Fabric.Text.Blank

/-! Metric samples and the text they are exported as: one sample a line, a name, labels in
braces, a value and perhaps a time. A line that cannot be read loses its own sample and no
other. -/

namespace Fabric

open Fabric.Text

structure Sample where
  labels : Table String String
  value : Float

def Sample.label? (s : Sample) (name : String) : Option String := s.labels.get? name

/-- The samples of each metric, in the order in which they were exported. -/
abbrev Snapshot := Table String (List Sample)

namespace Snapshot

def samples (s : Snapshot) (metric : String) : List Sample := (s.get? metric).getD []

def push (s : Snapshot) (metric : String) (x : Sample) : Snapshot :=
  s.upsert metric [] (· ++ [x])

end Snapshot

namespace Metrics

/-- Where in a list of labels the reader stands. Text read so far is kept backwards. -/
inductive LabelMode where
  | between
  | inName (seen : List Char)
  | beforeQuote (name : String)
  | inValue (name : String) (seen : List Char)
  | afterBackslash (name : String) (seen : List Char)

def nameOf (seen : List Char) : String := String.ofList (trim seen.reverse)

/-- Labels up to the closing brace, and the text after it. -/
def labelsFrom? (mode : LabelMode) (labels : Table String String) :
    List Char → Option (Table String String × List Char)
  | [] => none
  | c :: r =>
    match mode with
    | .between =>
      if c = ' ' ∨ c = ',' then labelsFrom? .between labels r
      else if c = '\x7d' then some (labels, r)
      else if c = '=' then labelsFrom? (.beforeQuote "") labels r
      else labelsFrom? (.inName [c]) labels r
    | .inName seen =>
      if c = '=' then labelsFrom? (.beforeQuote (nameOf seen)) labels r
      else labelsFrom? (.inName (c :: seen)) labels r
    | .beforeQuote name =>
      if c = '"' then labelsFrom? (.inValue name []) labels r
      else if isBlank c then labelsFrom? mode labels r
      else none
    | .inValue name seen =>
      if c = '"' then
        labelsFrom? .between (labels.insert name (String.ofList seen.reverse)) r
      else if c = '\\' then labelsFrom? (.afterBackslash name seen) labels r
      else labelsFrom? (.inValue name (c :: seen)) labels r
    | .afterBackslash name seen =>
      labelsFrom? (.inValue name ((if c = 'n' then '\n' else c) :: seen)) labels r

def value? (word : List Char) : Option Float :=
  match String.ofList word with
  | "+Inf" => some Decimal.infinity
  | "-Inf" => some (-Decimal.infinity)
  | "NaN" => some Decimal.notANumber
  | _ => Decimal.float? word

def endsName (c : Char) : Bool := c = '\x7b' || isBlank c

/-- The sample on a trimmed line. -/
def sample? (line : List Char) : Option (String × Sample) := do
  let name := line.takeWhile (!endsName ·)
  let rest := line.dropWhile (!endsName ·)
  if name.isEmpty then none
  let (labels, rest) ← match rest with
    | '\x7b' :: body => labelsFrom? .between ∅ body
    | _ => some (∅, rest)
  let value ← (words rest).head?.bind value?
  some (String.ofList name, ⟨labels, value⟩)

/-- What a line of the export says; comments and blank lines say nothing. -/
def lineSample? (line : List Char) : Option (String × Sample) :=
  match trim line with
  | [] => none
  | '#' :: _ => none
  | cs => sample? cs

def wanted (targets : List String) (name : String) : Bool :=
  targets.isEmpty || targets.contains name

def takeLine (targets : List String) (s : Snapshot) (line : List Char) : Snapshot :=
  match lineSample? line with
  | some (name, x) => if wanted targets name then s.push name x else s
  | none => s

/-- The samples in an exported text, only those of `targets` unless there are none. -/
def read (text : String) (targets : List String) : Snapshot :=
  (lines text.toList).foldl (takeLine targets) ∅

end Metrics
end Fabric
