/-
# Addresses

An address is a scheme and, after it, the user, host, port, path, query and fragment.  It is read
by the rules of the web, which mend much, and written in one form: dots in the path are followed,
characters that cannot stand in a part are encoded, and a port that the scheme implies is left out.
-/
import Punter.Http.Host

namespace Punter.Http

open Number

/-- An address. -/
structure Url where
  scheme : String
  user : String
  password : String
  host : Option String
  port : Option Nat
  path : String
  query : Option String
  fragment : Option String
  deriving DecidableEq, Repr

namespace Url

/-! ## Schemes -/

/-- The schemes of the web, with the ports that they imply. -/
def webSchemes : List (String × Nat) :=
  [("http", 80), ("https", 443), ("ws", 80), ("wss", 443), ("ftp", 21)]

/-- Whether a scheme is one of the web. -/
def isWeb (scheme : String) : Bool := webSchemes.any fun s => s.1 = scheme

/-- The port that a scheme implies. -/
def impliedPort (scheme : String) : Option Nat :=
  (webSchemes.find? fun s => s.1 = scheme).map (·.2)

/-- Characters that a scheme has after its first one. -/
def isSchemeChar (c : Char) : Bool := c.isAlphanum || c = '+' || c = '-' || c = '.'

/-- The scheme of a text, and what follows its colon. -/
def takeScheme (cs : List Char) : Option (String × List Char) :=
  match cs with
  | c :: _ =>
    if c.isAlpha then
      match cs.dropWhile isSchemeChar with
      | ':' :: rest =>
        some (String.ofList ((cs.takeWhile isSchemeChar).map Char.toLower), rest)
      | _ => none
    else none
  | [] => none

/-! ## Paths -/

/-- Segments that stay where they are. -/
def isSingleDot (s : List Char) : Bool :=
  [".", "%2e"].contains (String.ofList (s.map Char.toLower))

/-- Segments that lead back. -/
def isDoubleDot (s : List Char) : Bool :=
  ["..", ".%2e", "%2e.", "%2e%2e"].contains (String.ofList (s.map Char.toLower))

/-- Follows the segments of a path.  `sofar` are the segments before, the last one first. -/
def followSegments (sofar : List (List Char)) : List (List Char) → List (List Char)
  | [] => sofar.reverse
  | [s] =>
    if isDoubleDot s then ([] :: sofar.drop 1).reverse
    else if isSingleDot s then ([] :: sofar).reverse
    else (percentEncode .path s :: sofar).reverse
  | s :: rest =>
    if isDoubleDot s then followSegments (sofar.drop 1) rest
    else if isSingleDot s then followSegments sofar rest
    else followSegments (percentEncode .path s :: sofar) rest

/-- A path with its dots followed.  The text begins after the first slash. -/
def ofSegments (isSlash : Char → Bool) (cs : List Char) : List Char :=
  (followSegments [] (splitAt isSlash cs)).flatMap ('/' :: ·)

/-! ## Reading -/

/-- The part of a text before the first character of a kind, and the rest. -/
def cut (p : Char → Bool) (cs : List Char) : List Char × List Char :=
  (cs.takeWhile fun c => !p c, cs.dropWhile fun c => !p c)

/-- The texts before and after the last `@`, if there is one. -/
def atUser (cs : List Char) : Option (List Char × List Char) :=
  if cs.contains '@' then
    some ((cs.reverse.dropWhile (· ≠ '@')).drop 1 |>.reverse,
      (cs.reverse.takeWhile (· ≠ '@')).reverse)
  else none

/-- The texts of a host and of a port.  Colons in brackets belong to the host. -/
def atPort (cs : List Char) : List Char × List Char :=
  match cs with
  | '[' :: rest =>
    let (inside, after) := cut (· = ']') rest
    let (closing, port) := cut (· = ':') after
    ('[' :: (inside ++ closing), port.drop 1)
  | cs =>
    let (host, port) := cut (· = ':') cs
    (host, port.drop 1)

/-- Reads a port. -/
def readPort (scheme : String) (cs : List Char) : Option (Option Nat) :=
  if cs.isEmpty then some none
  else if !cs.all isDigit ∨ 65535 < ofDigits cs then none
  else if impliedPort scheme = some (ofDigits cs) then some none
  else some (some (ofDigits cs))

/-- Reads user, host and port. -/
def readAuthority (scheme : String) (cs : List Char) : Option Url := do
  let (credentials, rest) := (atUser cs).getD ([], cs)
  let (user, password) := cut (· = ':') credentials
  let (host, port) := atPort rest
  if host.isEmpty ∧ (!credentials.isEmpty ∨ !port.isEmpty ∨ isWeb scheme) then none
  let host ← if isWeb scheme then Host.ofWeb host else Host.ofOther host
  let port ← readPort scheme port
  let encoded (cs : List Char) := String.ofList (percentEncode .user cs)
  return ⟨scheme, encoded user, encoded (password.drop 1), some (String.ofList host), port, "",
    none, none⟩

/-- Reads query and fragment. -/
def readEnd (u : Url) (cs : List Char) : Url :=
  let (query, fragment) := cut (· = '#') cs
  let set := if isWeb u.scheme then CharSet.webQuery else CharSet.query
  let part (set : CharSet) : List Char → Option String
    | [] => none
    | _ :: rest => some (String.ofList (percentEncode set rest))
  { u with query := part set query, fragment := part .fragment fragment }

/-- Reads path, query and fragment of an address that has a host. -/
def readPath (isSlash : Char → Bool) (u : Url) (cs : List Char) : Url :=
  let (path, rest) := cut (fun c => c = '?' || c = '#') cs
  let path := match path with
    | [] => if isWeb u.scheme then ['/'] else []
    | c :: rest => if isSlash c then ofSegments isSlash rest else ofSegments isSlash (c :: rest)
  readEnd { u with path := String.ofList path } rest

/-- Reads what follows the scheme. -/
def readRest (scheme : String) (cs : List Char) : Option Url :=
  let bare : Url := ⟨scheme, "", "", none, none, "", none, none⟩
  if isWeb scheme then do
    let isSlash (c : Char) : Bool := c = '/' || c = '\\'
    let (authority, rest) :=
      cut (fun c => isSlash c || c = '?' || c = '#') (cs.dropWhile isSlash)
    let u ← readAuthority scheme authority
    return readPath isSlash u rest
  else
    match cs with
    | '/' :: '/' :: rest => do
      let (authority, rest) := cut (fun c => c = '/' || c = '?' || c = '#') rest
      let u ← readAuthority scheme authority
      let host := if scheme = "file" ∧ u.host = some "localhost" then some "" else u.host
      return readPath (· = '/') { u with host := host } rest
    | '/' :: rest => some (readPath (· = '/') bare ('/' :: rest))
    | cs =>
      let (path, rest) := cut (fun c => c = '?' || c = '#') cs
      some (readEnd { bare with path := String.ofList (percentEncode .control path) } rest)

/-- Characters that are cut off at both ends of a text. -/
def isMargin (c : Char) : Bool := c.toNat ≤ 0x20

/-- A text without what is cut off at its ends and what is ignored inside. -/
def trimmed (cs : List Char) : List Char :=
  let cs := ((cs.dropWhile isMargin).reverse.dropWhile isMargin).reverse
  cs.filter fun c => c ≠ '\t' ∧ c ≠ '\n' ∧ c ≠ '\r'

/-- Reads an address. -/
def parse? (s : String) : Option Url := do
  let (scheme, rest) ← takeScheme (trimmed s.toList)
  readRest scheme rest

/-! ## Writing -/

/-- A part with a sign in front of it, if there is one. -/
def signed (sign : String) : Option String → String
  | none => ""
  | some s => sign ++ s

/-- The text of an address. -/
def text (u : Url) : String :=
  let password := if u.password.isEmpty then "" else ":" ++ u.password
  let credentials := if u.user.isEmpty && u.password.isEmpty then "" else u.user ++ password ++ "@"
  let port := signed ":" (u.port.map numeral)
  let authority := match u.host with
    | some host => "//" ++ credentials ++ host ++ port
    | none => ""
  u.scheme ++ ":" ++ authority ++ u.path ++ signed "?" u.query ++ signed "#" u.fragment

/-- What is asked of the server: path and query. -/
def target (u : Url) : String := u.path ++ signed "?" u.query

/-- Whether the address names a host. -/
def hasHost (u : Url) : Bool :=
  match u.host with
  | some host => !host.isEmpty
  | none => false

/-- The address without user and password. -/
def withoutUser (u : Url) : Url := { u with user := "", password := "" }

/-- The address with further pairs of name and value in its query.  Names and values have to be
such that nothing in them is encoded. -/
def withPairs (u : Url) (pairs : List (String × String)) : Url :=
  let more := "&".intercalate (pairs.map fun p => p.1 ++ "=" ++ p.2)
  let query := match u.query with
    | none => more
    | some "" => more
    | some q => q ++ "&" ++ more
  { u with query := some query }

end Url

end Punter.Http
