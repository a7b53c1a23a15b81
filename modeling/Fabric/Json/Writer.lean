import Fabric.Json.Value
import Fabric.Text.Blank

/-! The text of a JSON value, on one line or indented by two blanks a level. -/

namespace Fabric.Json

open Fabric.Text

/-- What stands between the quotes; a literal that is no UTF-8 cannot be written. -/
def quoted (literal : List UInt8) : String :=
  "\"" ++ (Utf8.decode literal).getD "" ++ "\""

def JsonNumber.render : JsonNumber → String
  | .natural n => numeral n
  | .negative n => "-" ++ numeral n
  | .float x => if Decimal.isFinite x then Decimal.text Decimal.json x else "null"

mutual

def compact : Json → String
  | .null => "null"
  | .truth b => if b then "true" else "false"
  | .number n => JsonNumber.render n
  | .text l => quoted l
  | .list items => "[" ++ join "," (compactItems items) ++ "]"
  | .record ms => "\x7b" ++ join "," (compactMembers ms) ++ "\x7d"

def compactItems : List Json → List String
  | [] => []
  | v :: r => compact v :: compactItems r

def compactMembers : List (List UInt8 × Json) → List String
  | [] => []
  | (k, v) :: r => (quoted k ++ ":" ++ compact v) :: compactMembers r

end

def indent (depth : Nat) : String := String.ofList (List.replicate (2 * depth) ' ')

/-- Each part on a line of its own between the brackets; nothing between them when there is no
part. -/
def block (opening closing : String) (depth : Nat) : List String → String
  | [] => opening ++ closing
  | ps =>
    opening ++ "\n" ++ join ",\n" (ps.map (indent (depth + 1) ++ ·)) ++ "\n" ++ indent depth ++ closing

mutual

def prettyAt (depth : Nat) : Json → String
  | .null => "null"
  | .truth b => if b then "true" else "false"
  | .number n => JsonNumber.render n
  | .text l => quoted l
  | .list items => block "[" "]" depth (prettyItems (depth + 1) items)
  | .record ms => block "\x7b" "\x7d" depth (prettyMembers (depth + 1) ms)

def prettyItems (depth : Nat) : List Json → List String
  | [] => []
  | v :: r => prettyAt depth v :: prettyItems depth r

def prettyMembers (depth : Nat) : List (List UInt8 × Json) → List String
  | [] => []
  | (k, v) :: r => (quoted k ++ ": " ++ prettyAt depth v) :: prettyMembers depth r

end

def pretty (j : Json) : String := prettyAt 0 j

end Fabric.Json
