/-
# The remote service

The remote service is an endpoint together with a link, which carries requests and brings
responses back.
-/
import Punter.Http.Request
import Punter.Http.Response

namespace Punter.Http

/-- Something that carries requests. -/
class Link (τ : Type) where
  send : Request → τ → Response × τ

/-- An endpoint and a link to it. -/
structure Client (τ : Type) where
  endpoint : Endpoint
  link : τ

namespace Client

variable {τ α : Type} [Scalar α] [Link τ]

/-- The answer to a call. -/
def answer (c : Call α) (client : Client τ) : Except ServiceError c.Answer × Client τ :=
  match client.endpoint.requestFor c with
  | .error e => (.error e, client)
  | .ok r =>
    let (response, link) := Link.send r client.link
    let client := { client with link := link }
    match response with
    | .none => (.error (Endpoint.failedFor "error sending request" r.url), client)
    | .broken _ => (.error Response.undecodable, client)
    | .complete status body => (Response.decodeFor c status body, client)

instance : Service (Client τ) α := ⟨fun c _ client => answer c client⟩

end Client

/-! ## Links -/

/-- A link over which nothing can be reached. -/
structure NoLink where

instance : Link NoLink := ⟨fun _ l => (.none, l)⟩

/-- What a prepared server sends for one request. -/
inductive Prepared where
  /-- It closes the connection. -/
  | hangUp
  /-- It sends a status and a body, and announces a length for the body. -/
  | send (status : Nat) (body : List UInt8) (length : Nat)
  deriving DecidableEq, Repr

/-- What arrives when a server sends something prepared. -/
def Prepared.response : Prepared → Response
  | hangUp => .none
  | send status body length =>
    if !isFinal status then .none
    else if isBodiless status then .complete status []
    else if body.length < length then .broken status
    else .complete status (body.take length)

/-- A server at an address that answers requests from a list, and remembers them. -/
structure Server where
  host : String
  port : Nat
  prepared : List Prepared
  /-- What is sent when nothing prepared is left. -/
  otherwise : Prepared
  /-- The requests so far, the latest first. -/
  requests : List Request

namespace Server

/-- The base address of a server. -/
def baseUrl (s : Server) : String := "http://" ++ s.host ++ ":" ++ Number.numeral s.port

/-- Whether an address leads to the server. -/
def isAt (s : Server) (u : Url) : Bool :=
  u.scheme == "http" && u.host == some s.host && u.port == some s.port

/-- Sends a request.  Other addresses cannot be reached. -/
def send (r : Request) (s : Server) : Response × Server :=
  if s.isAt r.url then
    match s.prepared with
    | [] => (s.otherwise.response, { s with requests := r :: s.requests })
    | p :: ps => (p.response, { s with prepared := ps, requests := r :: s.requests })
  else (.none, s)

instance : Link Server := ⟨send⟩

end Server

end Punter.Http
