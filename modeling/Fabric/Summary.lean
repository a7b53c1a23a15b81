import Fabric.Changes

/-! The state of a part of the network in one word, with a line of detail and its history. -/

namespace Fabric

inductive State where
  | healthy
  | damaged
  | broken
  | down
  | up
  | active
deriving DecidableEq, Repr

namespace State

def name : State → String
  | healthy => "healthy"
  | damaged => "damaged"
  | broken => "broken"
  | down => "down"
  | up => "up"
  | active => "active"

def severity : State → Nat
  | broken | down => 2
  | damaged => 1
  | healthy | up | active => 0

/-- The more severe of two states, the first when they are equally severe. -/
def worst (s t : State) : State := if s.severity < t.severity then t else s

end State

structure Summary where
  state : State
  detail : String
  changes : Changes
deriving DecidableEq, Repr

def Summary.broken (detail : String) : Summary := ⟨.broken, detail, .none⟩

end Fabric
