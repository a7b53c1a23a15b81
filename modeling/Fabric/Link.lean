import Fabric.Changes
import Fabric.Table

/-! Stack links. A link joins two ports of switches and has no direction: the end that comes
first, by switch name and then by port number, is always called `a`. -/

namespace Fabric

open Fabric.Text

structure Endpoint where
  switch : String
  port : UInt32
deriving DecidableEq, Repr

namespace Endpoint

instance : Ord Endpoint :=
  ⟨compareLex (compareOn Endpoint.switch) (compareOn Endpoint.port)⟩

instance : Std.TransOrd Endpoint :=
  inferInstanceAs (Std.TransCmp (compareLex (compareOn Endpoint.switch) (compareOn Endpoint.port)))

theorem compare_eq (x y : Endpoint) :
    compare x y = (compare x.switch y.switch).then (compare x.port y.port) := rfl

instance : Std.LawfulEqOrd Endpoint where
  compare_self {x} := by simp
  eq_of_compare {x y} h := by
    rw [compare_eq, Ordering.then_eq_eq] at h
    obtain ⟨hs, hp⟩ := h
    cases x; cases y
    simp_all

def text (e : Endpoint) : String := e.switch ++ ":" ++ numeral e.port.toNat

end Endpoint

structure Link where
  a : Endpoint
  b : Endpoint
  ordered : compare a b ≠ .gt
deriving DecidableEq

namespace Link

instance : Ord Link := ⟨compareLex (compareOn Link.a) (compareOn Link.b)⟩

instance : Std.TransOrd Link :=
  inferInstanceAs (Std.TransCmp (compareLex (compareOn Link.a) (compareOn Link.b)))

theorem compare_eq (x y : Link) : compare x y = (compare x.a y.a).then (compare x.b y.b) := rfl

instance : Std.LawfulEqOrd Link where
  compare_self {x} := by simp
  eq_of_compare {x y} h := by
    rw [compare_eq, Ordering.then_eq_eq] at h
    obtain ⟨ha, hb⟩ := h
    cases x; cases y
    simp_all

/-- The link between two endpoints, whichever is named first. -/
def between (x y : Endpoint) : Link :=
  if h : compare x y = .gt then
    ⟨y, x, by
      rw [Std.OrientedCmp.gt_iff_lt] at h
      simp [h]⟩
  else ⟨x, y, h⟩

def ends (l : Link) : List Endpoint := [l.a, l.b]

/-- The far end, seen from one end. -/
def peer? (l : Link) (e : Endpoint) : Option Endpoint :=
  if l.a = e then some l.b else if l.b = e then some l.a else none

def text (l : Link) : String := l.a.text ++ "-" ++ l.b.text

end Link

inductive LinkState where
  | down
  | up
  | active
  | broken
deriving DecidableEq, Repr

namespace LinkState

def name : LinkState → String
  | .down => "down"
  | .up => "up"
  | .active => "active"
  | .broken => "broken"

def ofName? (s : String) : Option LinkState :=
  [down, up, active, broken].find? (·.name = s)

/-- Carrying traffic, or able to. -/
def isHealthy : LinkState → Bool
  | .up | .active => true
  | .down | .broken => false

end LinkState

/-- What is known of one link. -/
structure TrackedLink where
  link : Link
  state : LinkState
  changes : Changes
deriving DecidableEq

/-- A link is down until something is known of it. -/
def TrackedLink.fresh (l : Link) : TrackedLink := ⟨l, .down, .none⟩

end Fabric
