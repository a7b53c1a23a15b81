import Fabric.Fault
import Fabric.Metrics

/-! Fetching metrics. The endpoint is a tape: the reply to each request by its number. A fetch
reports what it got and what it did for it, in order. -/

namespace Fabric

inductive Reply where
  | response (status : Nat) (body : String)
  /-- There is no answer. A failure is soft when the endpoint is out of reach or too slow. -/
  | failed (soft : Bool)
deriving DecidableEq, Repr

namespace Scrape

/-- What one reply amounts to. -/
def outcome (targets : List String) : Reply → Except Fault Snapshot
  | .failed soft => .error (.transport soft "connection failed")
  | .response status body =>
    if 200 ≤ status ∧ status < 300 then .ok (Metrics.read body targets)
    else .error (.refused status)

/-- A step of a fetch; a pause lasts as long as is configured. -/
inductive Act where
  | request
  | pause
deriving DecidableEq, Repr

structure Fetch where
  result : Except Fault Snapshot
  acts : List Act

namespace Fetch

def requests (f : Fetch) : Nat := f.acts.count .request

def pauses (f : Fetch) : Nat := f.acts.count .pause

/-- The fetch with something that was done before it. -/
def after (f : Fetch) (acts : List Act) : Fetch := { f with acts := acts ++ f.acts }

end Fetch

def once (tape : Nat → Reply) (start : Nat) (targets : List String) : Fetch :=
  ⟨outcome targets (tape start), [.request]⟩

/-- Up to so many more attempts, the first of them with request `next`. An empty answer is tried
again at once, a transient failure after a pause; any other failure ends it. -/
def attempts (tape : Nat → Reply) (targets : List String) (budget : UInt32) : Nat → Nat → Fetch
  | 0, _ => ⟨.error (.noMetrics budget), []⟩
  | left + 1, next =>
    match outcome targets (tape next) with
    | .ok s =>
      if s.isEmpty then (attempts tape targets budget left (next + 1)).after [.request]
      else ⟨.ok s, [.request]⟩
    | .error e =>
      if e.isTransient then (attempts tape targets budget left (next + 1)).after [.request, .pause]
      else ⟨.error e, [.request]⟩

/-- Attempts from request `start` on until one is final or the budget is spent. -/
def retry (tape : Nat → Reply) (start : Nat) (targets : List String) (budget : UInt32) : Fetch :=
  attempts tape targets budget budget.toNat start

end Scrape
end Fabric
