import Fabric.Cli.Failure
import Fabric.Cli.Invocation
import Fabric.Monitor
import Fabric.Settings.Layers
import Fabric.Wiring.Text

/-! A session: the settings in force and the static configuration that they name. Looking at files
is an effect of any kind, so that a session can be loaded from a disk and from a table alike. -/

namespace Fabric.Cli

/-- What is found at a path. -/
inductive Place where
  | nothing
  | folder
  /-- A file, and its text unless that is no Unicode. -/
  | file (text : Option String)
deriving DecidableEq, Repr

structure Session where
  settings : Settings
  monitor : MonitorConfig
  wiring : Wiring

namespace Session

section Loading

variable {m : Type → Type} [Monad m]

def fileAt (look : String → m Place) (path : String) : ExceptT Failure m (Option String) := do
  match ← look path with
  | .file text => pure text
  | _ => throw (.noFile path)

/-- The text of the settings file at a path, none if there is no file. -/
def settingsAt? (look : String → m Place) (path : String) :
    ExceptT Failure m (Option (Option String)) := do
  match ← look path with
  | .file text => pure (some text)
  | _ => pure none

/-- The first file of that name, from the working folder upwards. -/
def nearest (look : String → m Place) : Nat → String → ExceptT Failure m (Option (Option String))
  | 0, path => settingsAt? look path
  | above + 1, path => do
    match ← settingsAt? look path with
    | some text => pure (some text)
    | none => nearest look above ("../" ++ path)

/-- A file that is there has to be readable. -/
def readable (text : Option (Option String)) : ExceptT Failure m (Option String) :=
  match text with
  | some none => throw .badSettings
  | some (some s) => pure (some s)
  | none => pure none

def loadSettings (look : String → m Place) (above : Nat) (env : Environment)
    (config : Option String) : ExceptT Failure m Settings := do
  let platform ← match Settings.platformPath? env with
    | some path => settingsAt? look path
    | none => pure none
  let file ← match config with
    | some path => some <$> fileAt look path
    | none => nearest look above Settings.fileName
  match Settings.layered? (← readable platform) (← readable file) env with
  | some s => pure s
  | none => throw .badSettings

/-- A static configuration that is not there configures nothing. -/
def loadWiring (look : String → m Place) (path : String) : ExceptT Failure m Wiring := do
  match ← look path with
  | .nothing => pure .empty
  | .folder | .file none => throw (.unreadable path)
  | .file (some text) =>
    match Wiring.ofYaml? text with
    | some w => pure w
    | none => throw (.badWiring path)

def load (look : String → m Place) (above : Nat) (env : Environment) (i : Invocation) :
    ExceptT Failure m Session := do
  let settings ← loadSettings look above env i.config
  let settings ← match i.faucetConfig with
    | some path => do
      let _ ← fileAt look path
      pure { settings with faucetConfig := path }
    | none => pure settings
  let monitor ← match settings.monitor with
    | .ok c => pure c
    | .error e => throw (.invalid e)
  let wiring ← loadWiring look settings.faucetConfig
  pure { settings, monitor, wiring }

end Loading

/-- A fresh engine under the static configuration. -/
def engine (s : Session) (now : Instant) : Engine :=
  (Engine.fresh s.monitor.engine).configure now s.wiring

def start (s : Session) (now : Instant) : Monitor := .start s.monitor (s.engine now)

end Session
end Fabric.Cli
