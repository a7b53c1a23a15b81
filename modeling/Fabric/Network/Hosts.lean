import Fabric.Fault
import Fabric.Network

/-! Ports and the hosts behind them. A host is recorded twice, by the host table with its port on
each switch and by the port that lists it; every update here keeps the two in step. An access
port holds one host at a time. -/

namespace Fabric.Network

def isAccess (w : Wiring) (e : Endpoint) : Bool := w.portType? e.switch e.port = some .access

/-! ## Losing hosts -/

/-- The host table without `mac` on one switch; a host that no switch reports is gone. -/
def withoutSighting (hosts : Table Mac Host) (mac : Mac) (switch : String) : Table Mac Host :=
  match hosts.get? mac with
  | none => hosts
  | some h =>
    let rest := h.sightings.erase switch
    if rest.isEmpty then hosts.erase mac else hosts.insert mac { h with sightings := rest }

/-- The port at `e` without `mac`; ports that do not exist stay so. -/
def withoutMac (switches : Table String Switch) (e : Endpoint) (mac : Mac) :
    Table String Switch :=
  switches.modify e.switch fun s =>
    { s with ports := s.ports.modify e.port fun p => { p with macs := p.macs.erase mac } }

/-- Forgets where `switch` saw the host. -/
def forget (w : Wiring) (mac : Mac) (switch : String) (n : Network) : Outcome :=
  match n.sighting? mac switch with
  | none => .quiet n
  | some s =>
    let place : Endpoint := ⟨switch, s.port⟩
    { network := { n with
        hosts := withoutSighting n.hosts mac switch
        hostChanges := n.hostChanges + 1
        switches := withoutMac n.switches place mac }
      notices := if isAccess w place then [.placement (some mac) place false] else [] }

def forgetAll (w : Wiring) (macs : List Mac) (switch : String) (n : Network) : Outcome :=
  .forEach macs (fun m => forget w m switch) n

/-- An access port went down: everything learned behind it is gone. -/
def clearPort (w : Wiring) (e : Endpoint) (n : Network) : Outcome :=
  match n.macsAt e with
  | [] => ⟨n, [.placement none e false]⟩
  | macs => forgetAll w macs e.switch n

/-! ## Updates -/

def portState (w : Wiring) (now : Instant) (e : Endpoint) (up : Bool) (n : Network) : Outcome :=
  if (n.port? e).any (·.up = some up) then .quiet n
  else
    let n := n.updatePort e fun p => { p with up := some up, changes := p.changes.note now }
    Outcome.andThen ⟨n, [.portState e up]⟩ fun n =>
      if !up && isAccess w e then clearPort w e n else .quiet n

/-- What a learn says of a host beside its place. -/
structure Traits where
  ip : Option String
  vid : Option UInt16
deriving DecidableEq, Repr

/-- The host after it was seen on `e`. -/
def seen (h : Host) (now : Instant) (e : Endpoint) (t : Traits) : Host :=
  { h with
    sightings := h.sightings.insert e.switch ⟨e.port, now⟩
    ips := match t.ip.filter (· ≠ "") with
      | some ip => h.ips.add ip
      | none => h.ips
    vid := t.vid.or h.vid }

/-- The ports of a switch once `mac` is on port `p` and, if it moved, no longer on `before`. -/
def movedTo (ports : Table UInt32 Port) (mac : Mac) (before : Option UInt32) (p : UInt32) :
    Table UInt32 Port :=
  let ports := match before with
    | some old => ports.upsert old .fresh fun x => { x with macs := x.macs.erase mac }
    | none => ports
  ports.upsert p .fresh fun x => { x with macs := x.macs.add mac }

/-- The new VLAN of a host that had another one. -/
def reassignment (h : Host) (t : Traits) : Option UInt16 :=
  match h.vid, t.vid with
  | some old, some new => if old = new then none else some new
  | _, _ => none

/-- Records the host on the port, whoever else may be there. -/
def record (w : Wiring) (now : Instant) (e : Endpoint) (mac : Mac) (t : Traits) (n : Network) :
    Outcome :=
  let host := (n.hosts.get? mac).getD .fresh
  let before := (host.sightings.get? e.switch).map (·.port)
  let left := before.filter (· ≠ e.port)
  let isNew := before.isNone || left.isSome
  let n := { n with
    hosts := n.hosts.insert mac (seen host now e t)
    hostChanges := n.hostChanges + (if isNew then 1 else 0) }
  { network := n.updateSwitch e.switch fun s => { s with ports := movedTo s.ports mac left e.port }
    notices := ((reassignment host t).map (Notice.reassigned mac)).toList ++
      (if isAccess w e then [.placement (some mac) e true, .learned e mac] else []) }

/-- A host that appears on an access port displaces the ones that were there. -/
def learn (w : Wiring) (now : Instant) (e : Endpoint) (mac : Mac) (t : Traits) (n : Network) :
    Outcome :=
  let displaced := if isAccess w e then (n.macsAt e).filter (· ≠ mac) else []
  (forgetAll w displaced e.switch n).andThen (record w now e mac t)

/-- A host that has moved to another port in the meantime is not lost. -/
def expire (w : Wiring) (e : Endpoint) (mac : Mac) (n : Network) : Outcome :=
  if (n.sighting? mac e.switch).any (·.port = e.port) then forget w mac e.switch n else .quiet n

def authorize (mac : Mac) (a : Authorization) (n : Network) : Except Fault Network :=
  match n.hosts.get? mac with
  | some h => .ok { n with hosts := n.hosts.insert mac { h with authorization := some a } }
  | none => .error (.unknownHost mac.text)

/-! ## Questions -/

/-- The first switch, by name, that sees the host on an access port. -/
def accessPoint? (n : Network) (w : Wiring) (mac : Mac) : Option Endpoint :=
  (n.hosts.get? mac).bind fun h =>
    (h.sightings.toList.map fun (s, x) => (⟨s, x.port⟩ : Endpoint)).find? (isAccess w)

end Fabric.Network
