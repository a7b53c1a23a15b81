import Fabric.Event
import Fabric.Link
import Fabric.SipHash
import Fabric.Text.Utf8

/-! The stack topology: its root, the port that leads each switch towards the root, and the
links. An announcement is staged first and applied later, so that a burst of announcements
changes the state once. Topologies are compared by a hash of what they hold. -/

namespace Fabric

open Fabric.Text

structure Topology where
  root : Option String
  rootHops : Table String UInt32
  links : KeySet Link
deriving DecidableEq

namespace Topology

def empty : Topology := ⟨none, ∅, ∅⟩

def rootHop? (t : Topology) (switch : String) : Option UInt32 := t.rootHops.get? switch

def isRoot (t : Topology) (switch : String) : Bool := t.root = some switch

/-- The link at an endpoint, in key order, seen from there: its far end. -/
def peer? (t : Topology) (e : Endpoint) : Option Endpoint := t.links.keys.findSome? (·.peer? e)

/-! ### What is hashed

Numbers stand with the lowest byte first. A byte that no text holds ends a text, and the length
comes before what is listed. -/

/-- So many bytes of a number. -/
def octets : Nat → Nat → List UInt8
  | 0, _ => []
  | count + 1, n => n.toUInt8 :: octets count (n / 256)

def textOctets (s : String) : List UInt8 := Utf8.encode s ++ [0xff]

def endpointOctets (e : Endpoint) : List UInt8 := textOctets e.switch ++ octets 4 e.port.toNat

def rootOctets : Option String → List UInt8
  | none => octets 8 0
  | some s => octets 8 1 ++ textOctets s

def octetsOf (t : Topology) : List UInt8 :=
  let hops := t.rootHops.toList
  let links := t.links.keys
  rootOctets t.root ++
    (octets 8 hops.length ++ hops.flatMap fun (s, p) => textOctets s ++ octets 4 p.toNat) ++
    (octets 8 links.length ++ links.flatMap fun l => endpointOctets l.a ++ endpointOctets l.b)

/-- Sixty-four bits that stand for the topology. -/
def hash (t : Topology) : UInt64 := SipHash.hash t.octetsOf

end Topology

/-- The link, unless a port label has no number. -/
def AnnouncedLink.link? (l : AnnouncedLink) : Option Link := do
  let a ← portNumber? l.portA
  let z ← portNumber? l.portZ
  some (.between ⟨l.switchA, a⟩ ⟨l.switchZ, z⟩)

/-- A root hop port of 0 is none, and a link whose ports cannot be read is left out. -/
def Announcement.topology (a : Announcement) : Topology :=
  { root := if a.root = "" then none else some a.root
    rootHops := Table.ofList (a.rootHops.toList.filterMap fun (s, p) =>
      (p.filter (· ≠ 0)).map (s, ·))
    links := KeySet.ofList (a.links.filterMap (·.link?)) }

/-- The latest announcement that is not applied yet, and when the first one came. -/
structure Staged where
  topology : Topology
  since : Instant
deriving DecidableEq

structure TopologyStatus where
  /-- Empty before the first one is applied. -/
  applied : Topology
  /-- When a topology last replaced a different one. -/
  appliedAt : Option Instant
  staged : Option Staged
  linkChanges : Changes
  rootChanges : Changes
deriving DecidableEq

namespace TopologyStatus

def fresh : TopologyStatus := ⟨.empty, none, none, .none, .none⟩

/-- The hash of what is in force, once something is. -/
def hash? (t : TopologyStatus) : Option UInt64 := t.appliedAt.map fun _ => t.applied.hash

theorem hash?_eq {t : TopologyStatus} (h : t.appliedAt.isSome = true) : t.hash? = some t.applied.hash := by
  obtain ⟨now, hnow⟩ := Option.isSome_iff_exists.mp h
  rw [hash?, hnow, Option.map_some]

end TopologyStatus

end Fabric
