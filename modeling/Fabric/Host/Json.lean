import Fabric.Host
import Fabric.Source

/-! Authorizations as JSON. A member may be missing, but a list has to give all of them. -/

namespace Fabric.Authorization

open Source (optional)

def names : List String := ["access", "segment", "role"]

def isShort : Json → Bool
  | .list l => l.length < names.length
  | _ => false

def ofJson? (j : Json) : Option Authorization := do
  if isShort j then none
  let r ← j.record? names
  let access ← optional r "access" Json.text?
  let segment ← optional r "segment" Json.text?
  let role ← optional r "role" Json.text?
  some ⟨access, segment, role⟩

end Fabric.Authorization
