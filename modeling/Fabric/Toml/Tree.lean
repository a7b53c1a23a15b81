import Fabric.Toml.Value

/-! The tables of a TOML text while it is read. A table is made once: by its header, or by the
dotted keys that run through it. A table that only lies on the way to another may still get its
header. Of the tables under one doubled header the last is the open one; it comes first here. -/

namespace Fabric.Toml

inductive Made where
  | byHeader
  | byKeys
  | onTheWay
deriving DecidableEq, Repr

inductive Tree where
  | leaf (v : Toml)
  | table (made : Made) (entries : List (String × Tree))
  | tables (all : List (List (String × Tree)))

abbrev Entries := List (String × Tree)

namespace Entries

def find? (es : Entries) (name : String) : Option Tree := es.lookup name

def put (es : Entries) (name : String) (t : Tree) : Entries :=
  es.map fun e => if e.1 = name then (name, t) else e

end Entries

/-- Changes the table at the end of a path. A table that is missing on the way is made; dotted
keys do not run through a table that has a header. -/
def within (keys : Bool) (f : Made → Entries → Option Entries) :
    List String → Made → Entries → Option Entries
  | [], made, es => f made es
  | name :: path, _, es =>
    match es.find? name with
    | none =>
      let made := if keys then Made.byKeys else .onTheWay
      (within keys f path made []).map fun inner => es ++ [(name, .table made inner)]
    | some (.leaf _) => none
    | some (.table made inner) =>
      if keys && made = .byHeader then none
      else (within keys f path made inner).map fun inner => es.put name (.table made inner)
    | some (.tables []) => none
    | some (.tables (inner :: older)) =>
      (within keys f path .byHeader inner).map fun inner => es.put name (.tables (inner :: older))

/-- A key path without its last name, and that name. -/
def splitPath (path : List String) : List String × String := (path.dropLast, path.getLastD "")

/-- Gives a dotted key a value. -/
def assign (path : List String) (v : Toml) (made : Made) (es : Entries) : Option Entries :=
  let (way, name) := splitPath path
  within true (fun made es =>
    if (made = .byKeys ↔ way = []) ∨ (es.find? name).isSome then none
    else some (es ++ [(name, .leaf v)])) way made es

/-- Opens the table of a header. -/
def openTable (path : List String) (es : Entries) : Option Entries :=
  let (way, name) := splitPath path
  within false (fun _ es =>
    match es.find? name with
    | none => some (es ++ [(name, .table .byHeader [])])
    | some (.table .onTheWay inner) => some (es.put name (.table .byHeader inner))
    | some _ => none) way .byHeader es

/-- Opens one more table of a doubled header. -/
def openNext (path : List String) (es : Entries) : Option Entries :=
  let (way, name) := splitPath path
  within false (fun _ es =>
    match es.find? name with
    | none => some (es ++ [(name, .tables [[]])])
    | some (.tables all) => some (es.put name (.tables ([] :: all)))
    | some _ => none) way .byHeader es

mutual

def Tree.value : Tree → Toml
  | .leaf v => v
  | .table _ es => .table (entryValues es)
  | .tables all => .list (tableValues all).reverse

def entryValues : List (String × Tree) → List (String × Toml)
  | [] => []
  | (k, t) :: r => (k, t.value) :: entryValues r

def tableValues : List (List (String × Tree)) → List Toml
  | [] => []
  | es :: r => .table (entryValues es) :: tableValues r

end

/-- The table of the pairs between braces. -/
def inlineTable? (pairs : List (List String × Toml)) : Option Toml :=
  (pairs.foldlM (fun es (path, v) => assign path v .byHeader es) []).map fun es =>
    .table (entryValues es)

end Fabric.Toml
