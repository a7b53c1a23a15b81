import Fabric.Time

/-! How often something changed and when it last did. -/

namespace Fabric

structure Changes where
  count : Nat
  last : Option Instant
deriving DecidableEq, Repr

namespace Changes

def none : Changes := ⟨0, .none⟩

instance : Inhabited Changes := ⟨none⟩

def note (c : Changes) (now : Instant) : Changes := ⟨c.count + 1, some now⟩

/-- The later of two instants; a missing one is earlier than any. -/
def later : Option Instant → Option Instant → Option Instant
  | .none, b => b
  | a, .none => a
  | some a, some b => some (max a b)

def latest (ts : List (Option Instant)) : Option Instant := ts.foldl later .none

/-- Both histories together. -/
def add (c d : Changes) : Changes := ⟨c.count + d.count, later c.last d.last⟩

def total (cs : List Changes) : Changes := cs.foldl add none

end Changes
end Fabric
