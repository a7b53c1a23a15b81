import Fabric.Wiring
import Fabric.Yaml.Reading

/-! The static configuration as text. A blank text configures nothing. -/

namespace Fabric.Wiring

def ofJsonText? (bytes : List UInt8) : Option Wiring := (Json.ofBytes? bytes).bind read?

def ofYaml? (s : String) : Option Wiring :=
  if (Text.trim s.toList).isEmpty then some empty else (Yaml.Spot.ofText? s).bind read?

end Fabric.Wiring
