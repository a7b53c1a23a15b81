import Fabric.Link

/-! Egress: the aggregated uplinks and the LACP status of each member. -/

namespace Fabric

inductive LacpState where
  | none
  | init
  | up
  | noAct
  | unknown
deriving DecidableEq, Repr

namespace LacpState

def ofCode (code : Int) : LacpState :=
  match code with
  | 0 => .none
  | 1 => .init
  | 3 => .up
  | 5 => .noAct
  | _ => .unknown

def name : LacpState → String
  | .none => "none"
  | .init => "init"
  | .up => "up"
  | .noAct => "no_act"
  | .unknown => "unknown"

end LacpState

inductive LacpRole where
  | none
  | selected
  | unselected
  | standby
  | unknown
deriving DecidableEq, Repr

namespace LacpRole

def ofCode (code : Int) : LacpRole :=
  match code with
  | 0 => .none
  | 1 => .selected
  | 2 => .unselected
  | 3 => .standby
  | _ => .unknown

def name : LacpRole → String
  | .none => "none"
  | .selected => "selected"
  | .unselected => "unselected"
  | .standby => "standby"
  | .unknown => "unknown"

end LacpRole

inductive MemberHealth where
  | active
  | up
  | down
deriving DecidableEq, Repr

def MemberHealth.name : MemberHealth → String
  | active => "active"
  | up => "up"
  | down => "down"

structure EgressMember where
  state : Option LacpState
  role : Option LacpRole
  changes : Changes
deriving DecidableEq

namespace EgressMember

/-- A member that never reported. -/
def silent : EgressMember := ⟨none, none, .none⟩

/-- Up and selected is active, up in any other role is a spare, anything else has failed. -/
def health (m : EgressMember) : MemberHealth :=
  match m.state, m.role with
  | some .up, some .selected => .active
  | some .up, _ => .up
  | _, _ => .down

end EgressMember

abbrev EgressGroup := Table Endpoint EgressMember

def EgressGroup.changes (g : EgressGroup) : Changes := Changes.total (g.values.map (·.changes))

end Fabric
