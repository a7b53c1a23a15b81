import Fabric.Engine
import Fabric.View

/-! Questions to the engine. While it is not ready, and for a question that makes no sense, the
answer is a broken summary that says why. -/

namespace Fabric

abbrev Answer (α : Type) := Except Summary α

namespace Engine

def ask {α : Type} (g : Engine) (question : Network → Except Fault α) : Answer α :=
  match g.readiness with
  | .unready detail => .error (.broken detail)
  | .ready => (question g.network).mapError fun e => .broken e.message

/-- A summary can stand for itself in either case. -/
def summarize (g : Engine) (summary : Network → Summary) : Summary :=
  match g.ask fun n => .ok (summary n) with
  | .ok s => s
  | .error s => s

def switchSummary (g : Engine) : Summary := g.summarize (·.switchSummary)

def dataplaneSummary (g : Engine) : Summary := g.summarize (·.dataplaneSummary g.wiring)

def hostSummary (g : Engine) : Summary := g.summarize (·.hostSummary)

def switches (g : Engine) (name : Option String) : Answer SwitchesView :=
  g.ask (·.switchesView g.wiring name)

def dataplane (g : Engine) : Answer DataplaneView := g.ask fun n => .ok (n.dataplaneView g.wiring)

def hosts (g : Engine) : Answer (Table Mac HostView) := g.ask fun n => .ok (n.hostsView g.wiring)

/-- The route from a switch that is tracked or configured. -/
def egressRoute (g : Engine) (switch : String) (inPort : Option UInt32) : Answer Route :=
  g.ask fun n =>
    if n.switches.contains switch || g.wiring.switches.contains switch then
      .ok (n.routeToEgress g.wiring switch inPort)
    else .error (.unknownSwitch switch)

/-- The route from one host to another, or to the egress without another or on demand. -/
def hostRoute (g : Engine) (src : Mac) (dst : Option Mac) (toEgress : Bool) : Answer HostRoute :=
  g.ask (·.hostRoute g.wiring src (if toEgress then none else dst))

end Engine
end Fabric
