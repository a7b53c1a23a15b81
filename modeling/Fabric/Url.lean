import Fabric.Url.Host

/-! Absolute URLs. Reading one brings it into its normal form: scheme and host in lower case, the
scheme's own port left out, dot segments resolved, everything else percent-encoded where its
place in the URL asks for it. -/

namespace Fabric

open Fabric.Text

inductive UrlPath where
  | segments (ss : List String)
  /-- The path of a URL such as `data:x`, which has no hierarchy. -/
  | bare (text : String)
deriving DecidableEq, Repr

structure Url where
  scheme : String
  user : String
  password : String
  host : Option String
  port : Option Nat
  path : UrlPath
  query : Option String
  fragment : Option String
deriving DecidableEq, Repr

namespace Url

/-! ## Schemes -/

def schemePort? (scheme : String) : Option Nat :=
  match scheme with
  | "http" | "ws" => some 80
  | "https" | "wss" => some 443
  | "ftp" => some 21
  | _ => none

/-- Does the scheme have hosts and slashes by its nature? -/
def isSpecial (scheme : String) : Bool := scheme = "file" || (schemePort? scheme).isSome

def isLetter (c : Char) : Bool := c.isAlpha

def isSchemeChar (c : Char) : Bool := c.isAlphanum || c = '+' || c = '-' || c = '.'

def scheme? (cs : List Char) : Option (String × List Char) :=
  match cs.dropWhile isSchemeChar with
  | ':' :: r =>
    if cs.head?.any isLetter then
      some (String.ofList ((cs.takeWhile isSchemeChar).map Char.toLower), r)
    else none
  | _ => none

/-! ## Paths -/

def fragmentSet : String := " \"<>`"
def pathSet : String := fragmentSet ++ "#?^\x7b\x7d"
def userSet : String := pathSet ++ "/:;=@[\\]|"
def querySet (special : Bool) : String := if special then " \"#<>'" else " \"#<>"

def isSlash (special : Bool) (c : Char) : Bool := c = '/' || (special && c = '\\')

/-- Dots may be written percent-encoded. -/
def dots (cs : List Char) : List Char :=
  match cs with
  | '%' :: '2' :: e :: r => if e = 'e' ∨ e = 'E' then '.' :: dots r else '%' :: dots ('2' :: e :: r)
  | c :: r => c :: dots r
  | [] => []

def isDrive (cs : List Char) : Bool :=
  match cs with
  | [c, d] => isLetter c && (d = ':' || d = '|')
  | _ => false

/-- One segment up, but never above a drive. -/
def parent (isFile : Bool) (ss : List (List Char)) : List (List Char) :=
  match ss with
  | [s] => if isFile && isDrive s then ss else []
  | _ => ss.dropLast

/-- Appends a segment to those before it; `isLast` when no slash follows. -/
def descend (isFile : Bool) (ss : List (List Char)) (s : List Char) (isLast : Bool) :
    List (List Char) :=
  let closed (ss : List (List Char)) : List (List Char) := if isLast then ss ++ [[]] else ss
  if dots s = ['.', '.'] then closed (parent isFile ss)
  else if dots s = ['.'] then closed ss
  else
    match isFile && ss.isEmpty && isDrive s, s with
    | true, c :: _ => ss ++ [[c, ':']]
    | _, _ => ss ++ [s]

def descendAll (isFile : Bool) (ss : List (List Char)) : List (List Char) → List (List Char)
  | [] => ss
  | [s] => descend isFile ss s true
  | s :: r => descendAll isFile (descend isFile ss s false) r

/-- The segments after a leading slash. -/
def segments (scheme : String) (cs : List Char) : List String :=
  let isFile := scheme = "file"
  let ss := descendAll isFile [] (splitAt (isSlash (isSpecial scheme)) cs)
  let ss := if isFile then ss.dropLast.dropWhile List.isEmpty ++ ss.getLast?.toList else ss
  ss.map (percentEncode pathSet)

/-- The path of a URL with an authority. -/
def rooted (scheme : String) (cs : List Char) : UrlPath :=
  match cs with
  | [] => .segments (if isSpecial scheme then [""] else [])
  | c :: r => .segments (segments scheme (if isSlash (isSpecial scheme) c then r else cs))

/-! ## Reading -/

/-- The text before a mark, and what follows it if it is there. -/
def cutOff (mark : Char) (cs : List Char) : List Char × Option (List Char) :=
  match cut? (· == mark) cs with
  | some (a, b) => (a, some b)
  | none => (cs, none)

/-- Path, query and fragment. -/
def parts (cs : List Char) : List Char × Option (List Char) × Option (List Char) :=
  let (cs, fragment) := cutOff '#' cs
  let (path, query) := cutOff '?' cs
  (path, query, fragment)

/-- Fills in what follows the authority. -/
def finish (u : Url) (path : List Char → UrlPath) (cs : List Char) : Url :=
  let (p, query, fragment) := parts cs
  { u with
    path := path p
    query := query.map (percentEncode (querySet (isSpecial u.scheme)))
    fragment := fragment.map (percentEncode fragmentSet) }

def blank (scheme : String) : Url := ⟨scheme, "", "", none, none, .segments [], none, none⟩

/-- The text before and after the last `@`. -/
def cutUser? (cs : List Char) : Option (List Char × List Char) :=
  (cut? (· == '@') cs.reverse).map fun (a, b) => (b.reverse, a.reverse)

/-- A host may hold colons between brackets. -/
def hostLength (inBrackets : Bool) : List Char → Nat
  | [] => 0
  | c :: r =>
    if c = ':' ∧ !inBrackets then 0
    else hostLength (if c = '[' then true else if c = ']' then false else inBrackets) r + 1

def port? (scheme : String) (cs : List Char) : Except UrlFault (Option Nat) :=
  match cs with
  | [] => .ok none
  | _ =>
    match (if cs.all Char.isDigit then digits? 10 cs else none) with
    | some n =>
      if maxU16 < n then .error .badPort
      else .ok (if schemePort? scheme = some n then none else some n)
    | none => .error .badPort

/-- Host and port. Only a URL without user may have no host, and only under a scheme that does
not need one. -/
def hostAndPort (u : Url) (cs : List Char) : Except UrlFault Url := do
  let n := hostLength false cs
  let name := cs.take n
  let rest := cs.drop n
  if name.isEmpty then
    if isSpecial u.scheme || !rest.isEmpty || u.user ≠ "" || u.password ≠ "" then
      .error .emptyHost
    else .ok { u with host := some "" }
  else
    let host ← if isSpecial u.scheme then hostText name else plainHostText name
    let port ← port? u.scheme (rest.drop 1)
    .ok { u with host := some host, port := port }

/-- What stands after the two slashes. -/
def withAuthority (scheme : String) (cs : List Char) : Except UrlFault Url := do
  let stops (c : Char) : Bool := isSlash (isSpecial scheme) c || c = '?' || c = '#'
  let authority := cs.takeWhile (!stops ·)
  let rest := cs.dropWhile (!stops ·)
  let u ← match cutUser? authority with
    | none => hostAndPort (blank scheme) authority
    | some ([], []) => if rest.isEmpty then hostAndPort (blank scheme) [] else .error .emptyHost
    | some (user, host) =>
      let (user, password) := cutOff ':' user
      hostAndPort { blank scheme with
        user := percentEncode userSet user
        password := percentEncode userSet (password.getD []) } host
  .ok (finish u (rooted scheme) rest)

/-- A file needs no host, and a drive is none. -/
def ofFile (cs : List Char) : Except UrlFault Url := do
  let file : Url := { blank "file" with host := some "" }
  match cs with
  | a :: b :: r =>
    if isSlash true a && isSlash true b then
      let stops (c : Char) : Bool := isSlash true c || c = '?' || c = '#'
      let name := r.takeWhile (!stops ·)
      if isDrive name then .ok (finish file (rooted "file") r)
      else if name.isEmpty || String.ofList name = "localhost" then
        .ok (finish file (rooted "file") (r.dropWhile (!stops ·)))
      else
        let host ← hostText name
        .ok (finish { file with host := if host = "localhost" then some "" else some host }
          (rooted "file") (r.dropWhile (!stops ·)))
    else .ok (finish file (rooted "file") cs)
  | _ => .ok (finish file (rooted "file") cs)

def isEdge (c : Char) : Bool := c.toNat ≤ 0x20

def isDropped (c : Char) : Bool := c = '\t' || c = '\n' || c = '\x0d'

/-- The characters that count: no controls at either end, no line breaks and tabs at all. -/
def visible (s : String) : List Char :=
  ((s.toList.dropWhile isEdge).reverse.dropWhile isEdge).reverse.filter (!isDropped ·)

def parse (s : String) : Except UrlFault Url :=
  match scheme? (visible s) with
  | none => .error .relative
  | some ("file", r) => ofFile r
  | some (scheme, r) =>
    if isSpecial scheme then withAuthority scheme (r.dropWhile (isSlash true))
    else
      match r with
      | '/' :: '/' :: r => withAuthority scheme r
      | '/' :: _ => .ok (finish (blank scheme) (rooted scheme) r)
      | _ => .ok (finish (blank scheme) (fun cs => .bare (percentEncode "" cs)) r)

/-! ## Writing -/

def authorityText (u : Url) (host : String) : String :=
  let password := if u.password = "" then "" else ":" ++ u.password
  let user := if u.user = "" ∧ u.password = "" then "" else u.user ++ password ++ "@"
  "//" ++ user ++ host ++ (match u.port with
    | some p => ":" ++ numeral p
    | none => "")

/-- A path that starts with an empty segment must not look like an authority. -/
def pathText (u : Url) : String :=
  match u.path with
  | .bare s => s
  | .segments ss =>
    let text := String.join (ss.map ("/" ++ ·))
    match u.host, ss with
    | none, "" :: _ :: _ => "/." ++ text
    | _, _ => text

def text (u : Url) : String :=
  u.scheme ++ ":" ++ (match u.host with
    | some h => authorityText u h
    | none => "") ++ pathText u ++
  (match u.query with
    | some q => "?" ++ q
    | none => "") ++
  (match u.fragment with
    | some f => "#" ++ f
    | none => "")

end Url
end Fabric
