import Fabric.Text.Blank
import Fabric.Text.Numeral

/-! What a command line asks for: a command, and options that hold for every command. -/

namespace Fabric.Cli

inductive Format where
  | table
  | json
  | jsonCompact
  | yaml
deriving DecidableEq, Repr

def Format.ofName? : String → Option Format
  | "table" => some .table
  | "json" => some .json
  | "json-compact" => some .jsonCompact
  | "yaml" => some .yaml
  | _ => none

inductive Query where
  | restore
  | status
  | switches (name : Option String)
  | dataplane
  | hosts
  | switchPath (name : String) (inPort : Option UInt32)
  | hostPath (src : String) (dst : Option String) (toEgress : Bool)
deriving DecidableEq, Repr

inductive Command where
  | run
  | query (q : Query)
  | showSettings
  | checkSettings
deriving DecidableEq, Repr

structure Invocation where
  /-- The settings file to use instead of the one at hand. -/
  config : Option String
  faucetConfig : Option String
  format : Format
  quiet : Bool
  command : Command
deriving DecidableEq, Repr

/-! ## Commands and their words -/

/-- A place in the tree of commands. -/
inductive Scope where
  | top
  | run
  | restore
  | status
  | switches
  | dataplane
  | hosts
  | path
  | switchPath
  | hostPath
  | config
  | showConfig
  | checkConfig
deriving DecidableEq, Repr

namespace Scope

/-- The words that lead from a group of commands to its parts. -/
def parts : Scope → List (String × Scope)
  | top => [("run", run), ("restore", restore), ("status", status), ("switches", switches),
      ("sw", switches), ("dataplane", dataplane), ("dp", dataplane), ("hosts", hosts),
      ("path", path), ("config", config)]
  | path => [("switch", switchPath), ("host", hostPath)]
  | config => [("show", showConfig), ("check", checkConfig)]
  | _ => []

def isGroup (s : Scope) : Bool := !s.parts.isEmpty

def label : Scope → String
  | top => "forch"
  | run => "forch-run"
  | restore => "forch-restore"
  | status => "forch-status"
  | switches => "forch-switches"
  | dataplane => "forch-dataplane"
  | hosts => "forch-hosts"
  | path => "forch-path"
  | switchPath => "forch-path-switch"
  | hostPath => "forch-path-host"
  | config => "forch-config"
  | showConfig => "forch-config-show"
  | checkConfig => "forch-config-check"

end Scope

/-! ## Options -/

inductive Flag where
  | config
  | faucetConfig
  | output
  | logFormat
  | verbose
  | quiet
  | help
  | version
  | inPort
  | toEgress
deriving DecidableEq, Repr

namespace Flag

def ofLong? : String → Option Flag
  | "config" => some config
  | "faucet-config" => some faucetConfig
  | "output" => some output
  | "log-format" => some logFormat
  | "verbose" => some verbose
  | "quiet" => some quiet
  | "help" => some help
  | "version" => some version
  | "in-port" => some inPort
  | "to-egress" => some toEgress
  | _ => none

def ofShort? : Char → Option Flag
  | 'c' => some config
  | 'f' => some faucetConfig
  | 'o' => some output
  | 'v' => some verbose
  | 'q' => some quiet
  | 'h' => some help
  | 'V' => some version
  | _ => none

def takesValue : Flag → Bool
  | config | faucetConfig | output | logFormat | inPort => true
  | _ => false

def isKnownIn (f : Flag) (s : Scope) : Bool :=
  match f with
  | inPort => s = .switchPath
  | toEgress => s = .hostPath
  | _ => true

end Flag

/-! ## Tokens -/

inductive Token where
  | flag (f : Flag)
  | setting (f : Flag) (value : String)
  | word (s : String)
  /-- A word behind the two dashes that end the options. -/
  | plain (s : String)
  | bad
deriving DecidableEq, Repr

/-- The tokens of one argument, and the flag at its end that still wants a value. -/
structure Piece where
  tokens : List Token
  wants : Option Flag

def longPiece (cs : List Char) : Piece :=
  let (name, value) := match Text.cut? (· == '=') cs with
    | some (name, value) => (name, some (String.ofList value))
    | none => (cs, none)
  match Flag.ofLong? (String.ofList name), value with
  | none, _ => ⟨[.bad], none⟩
  | some f, some v => if f.takesValue then ⟨[.setting f v], none⟩ else ⟨[.bad], none⟩
  | some f, none => if f.takesValue then ⟨[], some f⟩ else ⟨[.flag f], none⟩

/-- Several short flags may share an argument; the first that takes a value takes the rest, less an
equals sign. -/
def shortPiece : List Char → Piece
  | [] => ⟨[], none⟩
  | c :: r =>
    match Flag.ofShort? c with
    | none => ⟨[.bad], none⟩
    | some f =>
      if f.takesValue then
        match r with
        | [] => ⟨[], some f⟩
        | '=' :: r => ⟨[.setting f (String.ofList r)], none⟩
        | r => ⟨[.setting f (String.ofList r)], none⟩
      else
        let p := shortPiece r
        { p with tokens := .flag f :: p.tokens }

def piece (s : String) : Piece :=
  match s.toList with
  | '-' :: '-' :: r => longPiece r
  | ['-'] => ⟨[.word s], none⟩
  | '-' :: r => shortPiece r
  | _ => ⟨[.word s], none⟩

def looksLikeFlag (s : String) : Bool :=
  match s.toList with
  | '-' :: _ :: _ => true
  | _ => false

def tokens : List String → List Token
  | [] => []
  | [a] =>
    if a = "--" then []
    else
      let p := piece a
      p.tokens ++ (if p.wants.isSome then [.bad] else [])
  | a :: b :: r =>
    if a = "--" then (b :: r).map .plain
    else
      let p := piece a
      match p.wants with
      | none => p.tokens ++ tokens (b :: r)
      | some f =>
        p.tokens ++ (if looksLikeFlag b then [.bad] else .setting f b :: tokens r)

/-! ## Reading tokens -/

/-- What is given at one place of the tree of commands. -/
structure Given where
  config : Option String
  faucetConfig : Option String
  format : Option Format
  logged : Bool
  quiet : Bool
  inPort : Option UInt32
  toEgress : Bool
  values : List String

namespace Given

def nothing : Given := ⟨none, none, none, false, false, none, false, []⟩

/-- A number up to 32 bits, which may have a sign. -/
def port? (s : String) : Option UInt32 :=
  (Text.signed? 10 0 Text.maxU32 s.toList).map fun n => n.toNat.toUInt32

/-- Each option is given at most once in a place. -/
def set? (g : Given) (f : Flag) (v : String) : Option Given :=
  match f with
  | .config => if v = "" || g.config.isSome then none else some { g with config := some v }
  | .faucetConfig =>
    if v = "" || g.faucetConfig.isSome then none else some { g with faucetConfig := some v }
  | .output =>
    if g.format.isSome then none else (Format.ofName? v).map fun x => { g with format := some x }
  | .logFormat =>
    if g.logged || (v ≠ "text" && v ≠ "json") then none else some { g with logged := true }
  | .inPort =>
    if g.inPort.isSome then none else (port? v).map fun p => { g with inPort := some p }
  | _ => none

def switchOn? (g : Given) (f : Flag) : Option Given :=
  match f with
  | .quiet => if g.quiet then none else some { g with quiet := true }
  | .toEgress => if g.toEgress then none else some { g with toEgress := true }
  | .verbose => some g
  | _ => none

end Given

/-- How a command line is answered without running a command. -/
inductive Stop where
  /-- The arguments do not make sense. -/
  | misuse
  | help (s : Scope)
  | version (s : Scope)
deriving DecidableEq, Repr

/-- Where the reading has come to, what is given there, and what at the places above, nearest
first. -/
structure Reading where
  scope : Scope
  here : Given
  above : List Given
  /-- Help is asked for by a word; the words that follow name a command. -/
  helping : Bool

namespace Reading

def start : Reading := ⟨.top, .nothing, [], false⟩

def orMisuse {α : Type} : Option α → Except Stop α
  | some a => .ok a
  | none => .error .misuse

/-- How many values a command takes at most. -/
def room : Scope → Nat
  | .switches | .switchPath => 1
  | .hostPath => 2
  | _ => 0

def value (x : Reading) (s : String) : Except Stop Reading :=
  if x.here.values.length < room x.scope then
    .ok { x with here := { x.here with values := x.here.values ++ [s] } }
  else .error .misuse

def word (x : Reading) (s : String) : Except Stop Reading :=
  match x.scope.parts.lookup s with
  | some part =>
    if x.helping then .ok { x with scope := part }
    else .ok { x with scope := part, here := .nothing, above := x.here :: x.above }
  | none =>
    if x.scope.isGroup && s = "help" then .ok { x with helping := true }
    else if x.helping then .error .misuse
    else x.value s

def token (x : Reading) (t : Token) : Except Stop Reading :=
  match t with
  | .word s => x.word s
  | .bad => .error .misuse
  | .plain s => if x.helping then .error .misuse else x.value s
  | .flag f =>
    if x.helping || !f.isKnownIn x.scope then .error .misuse
    else match f with
      | .help => .error (.help x.scope)
      | .version => .error (.version x.scope)
      | f => do .ok { x with here := ← orMisuse (x.here.switchOn? f) }
  | .setting f v =>
    if x.helping || !f.isKnownIn x.scope then .error .misuse
    else do .ok { x with here := ← orMisuse (x.here.set? f v) }

/-- The command of a place, with the values given there. -/
def command? (s : Scope) (g : Given) : Option Command :=
  match s, g.values with
  | .run, [] => some .run
  | .restore, [] => some (.query .restore)
  | .status, [] => some (.query .status)
  | .switches, [] => some (.query (.switches none))
  | .switches, [name] => some (.query (.switches (some name)))
  | .dataplane, [] => some (.query .dataplane)
  | .hosts, [] => some (.query .hosts)
  | .switchPath, [name] => some (.query (.switchPath name g.inPort))
  | .hostPath, [src] => some (.query (.hostPath src none g.toEgress))
  | .hostPath, [src, dst] => some (.query (.hostPath src (some dst) g.toEgress))
  | .showConfig, [] => some .showSettings
  | .checkConfig, [] => some .checkSettings
  | _, _ => none

def levels (x : Reading) : List Given := x.here :: x.above

/-- What is given nearest to the command counts. The variable stands in for the option at each
place where that is not given, so it has to make sense there even if it does not count. -/
def finish (x : Reading) (config : Option String) : Except Stop Invocation := do
  if x.helping then .error (.help x.scope)
  let command ← orMisuse (command? x.scope x.here)
  if config = some "" ∧ x.levels.any (·.config.isNone) then .error .misuse
  .ok { config := (x.levels.findSome? (·.config)).or config
        faucetConfig := x.levels.findSome? (·.faucetConfig)
        format := (x.levels.findSome? (·.format)).getD .table
        quiet := x.levels.any (·.quiet)
        command }

end Reading

/-- Reads a command line; `config` is the variable that names a settings file. -/
def invocation (args : List String) (config : Option String) : Except Stop Invocation := do
  (← (tokens args).foldlM Reading.token .start).finish config

end Fabric.Cli
