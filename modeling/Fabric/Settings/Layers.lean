import Fabric.Settings
import Fabric.Settings.Variable
import Fabric.Toml.Reader

/-! The layers of the settings: what is usual, the file of the platform, the file at hand, and the
environment. A later layer overrides an earlier one, setting by setting. -/

namespace Fabric

abbrev Environment := List (String × String)

def Environment.get? (env : Environment) (name : String) : Option String := env.lookup name

namespace Settings

open Fabric.Text

def fileName : String := "forch.toml"

def variableStart : String := "FORCH_"

/-- Where the file of the platform is: in the user's folder for configurations. -/
def platformPath? (env : Environment) : Option String :=
  let folder? := match env.get? "XDG_CONFIG_HOME" with
    | some d => if d.toList.head? = some '/' then some d else none
    | none => none
  let home? := ((env.get? "HOME").filter (· ≠ "")).map (· ++ "/.config")
  (folder?.or home?).map (· ++ "/forch/" ++ fileName)

def lowerAscii (s : String) : String := String.ofList (s.toList.map Char.toLower)

/-- The setting of a variable, if its name starts like those of settings; a point in the name
makes it a table. -/
def ofVariable? (name value : String) : Option (String × Toml) := do
  let start := (lowerAscii variableStart).toList
  let key ← stripFront? start (lowerAscii name).toList
  match (splitAt (· == '.') key).map String.ofList with
  | [k] => some (k, Variable.value value)
  | k :: r => some (k, r.foldr (fun n v => .table [(n, v)]) (Variable.value value))
  | [] => none

def ofEnvironment (env : Environment) : List (String × Toml) :=
  env.filterMap fun (name, value) => ofVariable? name value

/-- The settings of all layers, given the texts of the two files. -/
def layered? (platform file : Option String) (env : Environment) : Option Settings := do
  let low ← Toml.ofText? (platform.getD "")
  let high ← Toml.ofText? (file.getD "")
  read? (Toml.table (Table.ofList (low ++ high ++ ofEnvironment env)).toList)

end Settings
end Fabric
