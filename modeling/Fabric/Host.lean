import Fabric.Table
import Fabric.Text.Blank
import Fabric.Text.Case
import Fabric.Time

/-! Hosts. A host is known by its MAC address and is present while some switch reports it. -/

namespace Fabric

/-- A MAC address in its normal form: trimmed, in lower case, with colons. -/
structure Mac where
  text : String
deriving DecidableEq, Repr

namespace Mac

def ofText (s : String) : Mac :=
  let cs := (Text.lower (String.ofList (Text.trim s.toList))).toList
  ⟨String.ofList (cs.map fun c => if c = '-' then ':' else c)⟩

instance : Ord Mac := ⟨compareOn Mac.text⟩

instance : Std.TransOrd Mac := inferInstanceAs (Std.TransCmp (compareOn Mac.text))

instance : Std.LawfulEqOrd Mac where
  eq_of_compare {x y} h := by
    have : x.text = y.text := Std.LawfulEqOrd.eq_of_compare h
    cases x; cases y; simp_all

end Mac

/-- Where and when one switch last saw a host. -/
structure Sighting where
  port : UInt32
  learnedAt : Instant
deriving DecidableEq, Repr

/-- What the authorization side attached to a host. -/
structure Authorization where
  access : Option String
  segment : Option String
  role : Option String
deriving DecidableEq, Repr

structure Host where
  sightings : Table String Sighting
  ips : KeySet String
  vid : Option UInt16
  authorization : Option Authorization
deriving DecidableEq

def Host.fresh : Host := ⟨∅, ∅, none, none⟩

end Fabric
