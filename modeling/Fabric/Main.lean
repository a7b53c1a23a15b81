import Fabric.Cli.Run

/-! The program: reads files and variables, prints what the command line is answered with, and
ends with its exit code. It has no network of its own, so the metrics endpoint and the event socket
are out of reach. -/

namespace Fabric.Main

open Cli

def look (path : String) : IO Place := do
  try
    return .file (String.fromUTF8? (← IO.FS.readBinFile path))
  catch
    | .noFileOrDirectory .. => return .nothing
    | _ => return .folder

/-- The variables that matter: those of the settings, and those that name files. -/
def variableNames : List String :=
  ["HOME", "XDG_CONFIG_HOME", "FORCH_CONFIG"] ++
    Settings.names.map fun s => Settings.variableStart ++ s.toUpper

def environment : IO Environment :=
  variableNames.filterMapM fun name => do
    return (← IO.getEnv name).map (name, ·)

def outside : IO (Outside IO) := do
  let folder ← IO.currentDir
  return {
    look
    above := folder.components.length
    env := ← environment
    network := ⟨fun _ => .failed true, 0⟩
    site := fun _ => .nothing
    received := [] }

end Fabric.Main

def main (args : List String) : IO UInt32 := do
  let r ← Fabric.Cli.respond (← Fabric.Main.outside) args
  IO.print r.text
  if let some f := r.failure then IO.eprintln f.message
  return r.exitCode.toUInt32
