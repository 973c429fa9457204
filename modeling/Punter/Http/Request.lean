/-
# Requests

Each call of the service is one request: a `POST` with a body of JSON, or a `GET`.  A request
names its key in a header, and cannot be built when its address or its key are unusable.
-/
import Punter.Http.Url
import Punter.Service.Call

namespace Punter.Http

/-- A request. -/
structure Request where
  url : Url
  /-- The value of the header that names the key. -/
  authorization : String
  /-- The JSON that is posted, if something is. -/
  body : Option String
  deriving DecidableEq, Repr

namespace Request

/-- The method of a request. -/
def method (r : Request) : String := if r.body.isSome then "POST" else "GET"

/-- The content type of a request, if it has content. -/
def contentType (r : Request) : Option String := r.body.map fun _ => "application/json"

end Request

/-- How the remote service is reached. -/
structure Endpoint where
  /-- The address in front of all paths, without slashes at its end. -/
  baseUrl : String
  key : String
  deriving DecidableEq, Repr

namespace Endpoint

/-- A text without the slashes at its end. -/
def withoutSlashes (s : String) : String :=
  String.ofList (s.toList.reverse.dropWhile (· = '/')).reverse

/-- The endpoint with a base address and a key. -/
def new (baseUrl key : String) : Endpoint := ⟨withoutSlashes baseUrl, key⟩

/-- Characters that the value of a header may have. -/
def isHeaderChar (c : Char) : Bool := c = '\t' || (0x20 ≤ c.toNat && c.toNat ≠ 0x7f)

/-- A request cannot be built. -/
def unbuildable : ServiceError := .transport "builder error"

/-- A request failed for an address. -/
def failedFor (what : String) (u : Url) : ServiceError :=
  .transport (what ++ " for url (" ++ u.text ++ ")")

/-- Builds a request for a path below the base address.  The address has to be one of the web. -/
def request (e : Endpoint) (path : String) (pairs : List (String × String))
    (body : Option String) : Except ServiceError Request :=
  match Url.parse? (e.baseUrl ++ path) with
  | none => .error unbuildable
  | some u =>
    if !u.hasHost then .error (failedFor "builder error" u)
    else if !e.key.toList.all isHeaderChar then .error unbuildable
    else
      let u := u.withoutUser
      let u := if pairs.isEmpty then u else u.withPairs pairs
      if u.scheme = "http" ∨ u.scheme = "https" then .ok ⟨u, "Bearer " ++ e.key, body⟩
      else .error (failedFor "builder error" u)

variable {α : Type} [Scalar α]

/-- The request for a call. -/
def requestFor (e : Endpoint) : Call α → Except ServiceError Request
  | .create game player =>
    e.request "/sessions" [] (some (Opening.codec.toText (⟨game, player⟩ : Opening α)))
  | .get session => e.request ("/sessions/" ++ session.text) [] none
  | .play session play =>
    e.request ("/sessions/" ++ session.text ++ "/actions") [] (some (Play.codec.toText play))
  | .page session limit offset =>
    e.request "/rl/export"
      [("sessionId", session.text), ("limit", Number.numeral limit),
        ("offset", Number.numeral offset)] none
  | .health => e.request "/health" [] none

end Endpoint

end Punter.Http
