import Fabric.Cli.Report
import Fabric.Cli.Session
import Fabric.Json.Writer
import Fabric.Toml.Writer
import Fabric.Yaml.Writer

/-! Running a command: the session is loaded, a query restores the state once and is answered from
it, and `run` follows the feed until it ends. -/

namespace Fabric.Cli

/-- What is shown in answer to a command: a document, and its text for a terminal. -/
structure Page where
  doc : Doc
  table : String

def Page.text (p : Page) : Format → String
  | .table => p.table
  | .json => p.doc.toJson.pretty
  | .jsonCompact => p.doc.toJson.compact
  | .yaml => Yaml.render p.doc

/-! ## Answers -/

def answered {α : Type} (a : Answer α) : Except Failure α :=
  a.mapError fun s => .unanswered s.detail

/-- The page that answers a query, from an engine restored up to `horizon`. -/
def answer (g : Engine) (horizon : UInt64) : Query → Except Failure Page
  | .restore => do
    let switches ← answered (g.switches none)
    let dataplane ← answered g.dataplane
    let hosts ← answered g.hosts
    .ok {
      doc := .fields [("event_horizon", .number horizon.toNat), ("switches", switches.doc),
        ("dataplane", dataplane.doc), ("hosts", hostsDoc hosts)]
      table := Text.join "\n\n" ["Restored up to event " ++ Text.numeral horizon.toNat,
        switchesReport switches, dataplaneReport dataplane, hostsReport hosts] }
  | .status =>
    .ok {
      doc := .fields [("switches", g.switchSummary.doc), ("dataplane", g.dataplaneSummary.doc),
        ("hosts", g.hostSummary.doc)]
      table := statusReport g.switchSummary g.dataplaneSummary g.hostSummary }
  | .switches name => do
    let v ← answered (g.switches name)
    .ok ⟨v.doc, switchesReport v⟩
  | .dataplane => do
    let v ← answered g.dataplane
    .ok ⟨v.doc, dataplaneReport v⟩
  | .hosts => do
    let v ← answered g.hosts
    .ok ⟨hostsDoc v, hostsReport v⟩
  | .switchPath name inPort => do
    let r ← answered (g.egressRoute name inPort)
    .ok ⟨r.doc, routeReport r⟩
  | .hostPath src dst toEgress => do
    let r ← answered (g.hostRoute (.ofText src) (dst.map .ofText) toEgress)
    .ok ⟨r.doc, hostRouteReport r⟩

def settingsPage (s : Session) : Except Failure Page :=
  match Toml.lines? s.settings.doc with
  | some table => .ok ⟨s.settings.doc, table⟩
  | none => .error .unwritable

def checkPage (s : Session) : Page :=
  let path := s.settings.faucetConfig
  let switches := s.wiring.switches.size
  let links := s.wiring.stackLinks.size
  let ports := s.wiring.egressPorts.length
  { doc := .fields [("faucet_config", .text path), ("switches", .number switches),
      ("stack_links", .number links), ("egress_ports", .number ports)]
    table := "Configuration OK: " ++ Text.numeral switches ++ " switches, " ++
      Text.numeral links ++ " stack links, " ++ Text.numeral ports ++ " egress ports (" ++ path ++
      ")" }

/-! ## Commands -/

/-- What a command meets outside: files and variables, the metrics endpoint and the clock, and
what is at the path of the event socket, with the bytes that come from there. -/
structure Outside (m : Type → Type) where
  look : String → m Place
  /-- How many folders lie above the working one. -/
  above : Nat
  env : Environment
  network : Surroundings
  site : String → Feed.Site
  received : List UInt8

/-- How a command ends, and how many requests it made on the way. -/
structure Outcome where
  result : Except Failure (Option Page)
  requests : Nat

/-- Follows the feed until it ends, which it does with a fault unless it is told to stop. -/
def follow (network : Surroundings) (site : String → Feed.Site) (received : List UInt8)
    (s : Session) : Outcome :=
  let ended (m : Monitor) (fault : Option Fault) : Outcome :=
    { result := match fault with
        | some e => .error (.ofRun e)
        | none => .ok none
      requests := m.requests }
  match (s.start network.now).connect network (site s.monitor.feed.socket) with
  | (m, some e) => ended m (some e)
  | (m, none) =>
    let (m, fault) := m.session network received
    ended m fault

def query (network : Surroundings) (s : Session) (q : Query) : Outcome :=
  match (s.start network.now).restore network with
  | (m, .error e) => ⟨.error (.notRestored e), m.requests⟩
  | (m, .ok horizon) => ⟨(answer m.engine horizon q).map some, m.requests⟩

def perform (network : Surroundings) (site : String → Feed.Site) (received : List UInt8)
    (s : Session) : Command → Outcome
  | .run => follow network site received s
  | .query q => query network s q
  | .showSettings => ⟨(settingsPage s).map some, 0⟩
  | .checkSettings => ⟨.ok (some (checkPage s)), 0⟩

/-- What is left of a command line when it is done. -/
structure Response where
  exitCode : Nat
  text : String
  /-- Told to the user beside the answer. -/
  failure : Option Failure
  requests : Nat

namespace Response

def shown (text : String) : Response := ⟨0, text, none, 0⟩

def failed (f : Failure) (requests : Nat) : Response := ⟨f.exitCode, "", some f, requests⟩

/-- A page ends with a line feed; nothing is shown of an empty one, or when quiet. -/
def ofOutcome (i : Invocation) (o : Outcome) : Response :=
  match o.result with
  | .error f => failed f o.requests
  | .ok none => ⟨0, "", none, o.requests⟩
  | .ok (some p) =>
    let text := p.text i.format
    ⟨0, if i.quiet || text = "" then "" else text ++ "\n", none, o.requests⟩

end Response

def version : String := "0.1.0"

/-- The words that may follow in a place. -/
def usage (s : Scope) : String :=
  "Usage: " ++ s.label ++ " [OPTIONS]" ++
    (if s.isGroup then " <COMMAND>\n\nCommands: " ++ Text.join ", " (s.parts.map (·.1)) else "") ++ "\n"

/-- Answers a command line. -/
def respond {m : Type → Type} [Monad m] (o : Outside m) (args : List String) : m Response := do
  match invocation args (o.env.get? "FORCH_CONFIG") with
  | .error .misuse => pure (.failed .misuse 0)
  | .error (.help s) => pure (.shown (usage s))
  | .error (.version s) => pure (.shown (s.label ++ " " ++ version ++ "\n"))
  | .ok i =>
    match ← (Session.load o.look o.above o.env i).run with
    | .error f => pure (.failed f 0)
    | .ok s => pure (.ofOutcome i (perform o.network o.site o.received s i.command))

end Fabric.Cli
