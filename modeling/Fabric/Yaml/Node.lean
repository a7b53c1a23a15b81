import Fabric.Table
import Fabric.Yaml.Token

/-! The nodes of a YAML document. An anchor numbers its node, and an alias holds the number its
name had when it was met. -/

namespace Fabric.Yaml

inductive Node where
  | alias (id : Nat)
  | scalar (tag : Option String) (style : Style) (text : String)
  | list (tag : Option String) (items : List Node)
  | map (tag : Option String) (entries : List (Node × Node))
deriving Repr, Inhabited

/-- The node where nothing is written. -/
def Node.blank : Node := .scalar none .plain ""

structure Document where
  root : Node
  anchors : Table Nat Node

structure Builder where
  tokens : List Token
  /-- What tag handles stand for. -/
  handles : List (String × String)
  names : Table String Nat
  anchors : Table Nat Node

namespace Builder

def defaultHandles : List (String × String) := [("!", "!"), ("!!", "tag:yaml.org,2002:")]

def moveTo (b : Builder) (ts : List Token) : Builder := { b with tokens := ts }

/-- The number of a newly anchored node counts the names so far. -/
def register (b : Builder) (anchor : Option String) : Option Nat × Builder :=
  match anchor with
  | none => (none, b)
  | some n => (some b.names.size, { b with names := b.names.insert n b.names.size })

def bind (b : Builder) (id : Option Nat) (n : Node) : Builder :=
  match id with
  | none => b
  | some i => { b with anchors := b.anchors.insert i n }

def resolve? (b : Builder) (handle suffix : String) : Option String :=
  if handle = "" then some suffix
  else (b.handles.find? (·.1 = handle)).map (·.2 ++ suffix)

/-- The anchor and the tag in front of a node, in either order. -/
def properties? (b : Builder) : Option (Option String × Option String × Builder) :=
  match b.tokens with
  | .anchor n :: .tag h s :: r => (b.resolve? h s).map fun t => (some n, some t, b.moveTo r)
  | .tag h s :: .anchor n :: r => (b.resolve? h s).map fun t => (some n, some t, b.moveTo r)
  | .anchor n :: r => some (some n, none, b.moveTo r)
  | .tag h s :: r => (b.resolve? h s).map fun t => (none, some t, b.moveTo r)
  | _ => some (none, none, b)

def meets (b : Builder) (ts : List Token) : Bool := b.tokens.head?.any ts.contains

mutual

/-- The node at the front. Block collections count only where `block`; a sequence may stand
without indentation where `flat`. -/
def node? : Nat → Bool → Bool → Builder → Option (Node × Builder)
  | 0, _, _, _ => none
  | fuel + 1, block, flat, b =>
    match b.tokens with
    | .alias n :: r => (b.names.get? n).map fun i => (.alias i, b.moveTo r)
    | _ => do
      let (anchor, tag, b) ← b.properties?
      let (id, b) := b.register anchor
      let (n, b) ← content? fuel block flat (anchor.isSome || tag.isSome) tag b
      some (n, b.bind id n)

def content? : Nat → Bool → Bool → Bool → Option String → Builder → Option (Node × Builder)
  | 0, _, _, _, _, _ => none
  | fuel + 1, block, flat, marked, tag, b =>
    match b.tokens with
    | .item :: _ =>
      if flat then (flatItems? fuel [] b).map fun (l, b) => (.list tag l, b)
      else if marked then some (.scalar tag .plain "", b) else none
    | .scalar s style :: r => some (.scalar (tag.filter (· ≠ "!")) style s, b.moveTo r)
    | .flowSequence :: r => (flowItems? fuel [] (b.moveTo r)).map fun (l, b) => (.list tag l, b)
    | .flowMapping :: r => (flowEntries? fuel [] (b.moveTo r)).map fun (l, b) => (.map tag l, b)
    | t :: r =>
      if block && t = .blockSequence then
        (blockItems? fuel [] (b.moveTo r)).map fun (l, b) => (.list tag l, b)
      else if block && t = .blockMapping then
        (blockEntries? fuel [] (b.moveTo r)).map fun (l, b) => (.map tag l, b)
      else if marked then some (.scalar tag .plain "", b) else none
    | [] => if marked then some (.scalar tag .plain "", b) else none

/-- A node, or a blank one where one of `ends` or the end of the tokens stands. -/
def nodeUnless? : Nat → Bool → Bool → List Token → Builder → Option (Node × Builder)
  | 0, _, _, _, _ => none
  | fuel + 1, block, flat, ends, b =>
    if b.meets ends then some (.blank, b) else node? fuel block flat b

def blockItems? : Nat → List Node → Builder → Option (List Node × Builder)
  | 0, _, _ => none
  | fuel + 1, acc, b =>
    match b.tokens with
    | .item :: r => do
      let (n, b) ← nodeUnless? fuel true false [.item, .blockEnd] (b.moveTo r)
      blockItems? fuel (n :: acc) b
    | .blockEnd :: r => some (acc.reverse, b.moveTo r)
    | _ => none

/-- A sequence at the indentation of the mapping around it ends without a token. -/
def flatItems? : Nat → List Node → Builder → Option (List Node × Builder)
  | 0, _, _ => none
  | fuel + 1, acc, b =>
    match b.tokens with
    | .item :: r => do
      let (n, b) ← nodeUnless? fuel true false [.item, .key, .value, .blockEnd] (b.moveTo r)
      flatItems? fuel (n :: acc) b
    | _ => some (acc.reverse, b)

def blockEntries? : Nat → List (Node × Node) → Builder → Option (List (Node × Node) × Builder)
  | 0, _, _ => none
  | fuel + 1, acc, b =>
    match b.tokens with
    | .key :: r => do
      let (k, b) ← nodeUnless? fuel true true [.key, .value, .blockEnd] (b.moveTo r)
      match b.tokens with
      | .value :: r => do
        let (v, b) ← nodeUnless? fuel true true [.key, .value, .blockEnd] (b.moveTo r)
        blockEntries? fuel ((k, v) :: acc) b
      | _ => blockEntries? fuel ((k, .blank) :: acc) b
    | .blockEnd :: r => some (acc.reverse, b.moveTo r)
    | _ => none

/-- The items of a flow sequence; one that is a key with a value is a mapping of its own. -/
def flowItems? : Nat → List Node → Builder → Option (List Node × Builder)
  | 0, _, _ => none
  | fuel + 1, acc, b =>
    match b.tokens with
    | .flowSequenceEnd :: r => some (acc.reverse, b.moveTo r)
    | .key :: r => do
      let (k, b) ← keyOrSkip? fuel (b.moveTo r)
      let (v, b) ← flowValue? fuel .flowSequenceEnd b
      flowMoreItems? fuel (.map none [(k, v)] :: acc) b
    | _ => do
      let (n, b) ← node? fuel false false b
      flowMoreItems? fuel (n :: acc) b

/-- The key after a question mark. Where there is none, the token in its place goes too. -/
def keyOrSkip? : Nat → Builder → Option (Node × Builder)
  | 0, _ => none
  | fuel + 1, b =>
    if b.meets [.value, .comma, .flowSequenceEnd] then
      some (.blank, b.moveTo (b.tokens.drop 1))
    else node? fuel false false b

def flowMoreItems? : Nat → List Node → Builder → Option (List Node × Builder)
  | 0, _, _ => none
  | fuel + 1, acc, b =>
    match b.tokens with
    | .comma :: r => flowItems? fuel acc (b.moveTo r)
    | .flowSequenceEnd :: r => some (acc.reverse, b.moveTo r)
    | _ => none

def flowEntries? : Nat → List (Node × Node) → Builder → Option (List (Node × Node) × Builder)
  | 0, _, _ => none
  | fuel + 1, acc, b =>
    match b.tokens with
    | .flowMappingEnd :: r => some (acc.reverse, b.moveTo r)
    | .key :: r => do
      let (k, b) ← nodeUnless? fuel false false [.value, .comma, .flowMappingEnd] (b.moveTo r)
      let (v, b) ← flowValue? fuel .flowMappingEnd b
      flowMoreEntries? fuel ((k, v) :: acc) b
    | _ => do
      let (k, b) ← node? fuel false false b
      flowMoreEntries? fuel ((k, .blank) :: acc) b

def flowMoreEntries? : Nat → List (Node × Node) → Builder → Option (List (Node × Node) × Builder)
  | 0, _, _ => none
  | fuel + 1, acc, b =>
    match b.tokens with
    | .comma :: r => flowEntries? fuel acc (b.moveTo r)
    | .flowMappingEnd :: r => some (acc.reverse, b.moveTo r)
    | _ => none

def flowValue? : Nat → Token → Builder → Option (Node × Builder)
  | 0, _, _ => none
  | fuel + 1, close, b =>
    match b.tokens with
    | .value :: r => nodeUnless? fuel false false [.comma, close] (b.moveTo r)
    | _ => some (.blank, b)

end

/-! ## Documents -/

def dropEnds (b : Builder) : Builder := b.moveTo (b.tokens.dropWhile (· = .documentEnd))

/-- Reads the directives in front of a document: a version of 1.1 or 1.2, once, and handles,
each once. -/
def directives? : List Token → Bool → List (String × String) →
    Option (List Token × List (String × String))
  | .version major minor :: r, seen, hs =>
    if seen || major ≠ 1 || (minor ≠ 1 && minor ≠ 2) then none else directives? r true hs
  | .handle h stem :: r, seen, hs =>
    if hs.any (·.1 = h) then none else directives? r seen (hs ++ [(h, stem)])
  | ts, _, hs => some (ts, hs)

def document? (b : Builder) : Option (Document × Builder) := do
  let (ts, own) ← directives? b.tokens false []
  let explicit := ts.length ≠ b.tokens.length
  let handles := own ++ defaultHandles.filter fun d => !own.any (·.1 = d.1)
  let b : Builder := ⟨ts, handles, ∅, ∅⟩
  let b ← match b.tokens with
    | .documentStart :: r => some (b.moveTo r)
    | _ => if explicit then none else some b
  let started := ts.head? = some .documentStart
  let ended := b.tokens.isEmpty || b.meets [.documentStart, .documentEnd] ||
    b.tokens.head?.any fun t => match t with
      | .version _ _ | .handle _ _ => true
      | _ => false
  let (root, b) ← if started && ended then some (Node.blank, b)
    else node? (4 * b.tokens.length + 8) true false b
  some (⟨root, b.anchors⟩, b)

end Builder

/-- The only document of a text; `some none` when it has none. A text with several has none
that is meant. -/
def document? (s : String) : Option (Option Document) := do
  let ts ← tokens? s
  if ts.isEmpty then some none
  else do
    let (d, b) ← Builder.document? ⟨ts, [], ∅, ∅⟩
    if b.dropEnds.tokens.isEmpty then some (some d) else none

end Fabric.Yaml
