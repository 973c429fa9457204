/-
# Responses

A response that is a success has to be the JSON of the answer.  Any other response rejects the
call: with the code and the message of its body if it has them, and otherwise with the code that
its status stands for.
-/
import Punter.Http.Status
import Punter.Text.Utf8
import Punter.Service.Call

namespace Punter.Http

/-- What arrives in answer to a request. -/
inductive Response where
  /-- Nothing: the connection is refused or closed. -/
  | none
  /-- A status, and a body that breaks off. -/
  | broken (status : Nat)
  /-- A status and a body. -/
  | complete (status : Nat) (body : List UInt8)
  deriving DecidableEq, Repr

namespace Response

/-- The failure of an answer that makes no sense. -/
def undecodable : ServiceError := .undecodable "error decoding response body"

variable {α T : Type} [Scalar α]

/-- The answer of a success. -/
def answer (c : Codec α T) (body : List UInt8) : Except ServiceError T :=
  match Text.ofBytes? body with
  | .none => .error undecodable
  | some text =>
    match c.ofText text with
    | .ok v => .ok v
    | .error _ => .error undecodable

/-- The failure that a response with a status and a text stands for. -/
def rejection (α : Type) [Scalar α] (status : Nat) (text : String) : ServiceError :=
  match (Rejection.bodyCodec : Codec α (Rejection α)).ofText text with
  | .ok r => .rejected (.ofText r.code) (some status) r.message
  | .error _ => .rejected (codeFor status) (some status) (statusText status ++ ": " ++ text)

/-- Decodes a status and a body. -/
def decode (c : Codec α T) (status : Nat) (body : List UInt8) : Except ServiceError T :=
  if isSuccess status then answer c body
  else .error (rejection α status (Text.ofBytesLossy body))

/-- The answer to a call in a status and a body. -/
def decodeFor (c : Call α) (status : Nat) (body : List UInt8) : Except ServiceError c.Answer :=
  match c with
  | .create _ _ => decode (Opened.codec : Codec α Opened) status body
  | .get _ => (decode Session.codec status body).map .ofSession
  | .play _ _ => (decode Played.codec status body).map .ofPlayed
  | .page _ _ _ => (decode Page.codec status body).map (·.experiences)
  | .health => decode (Health.codec : Codec α Health) status body

end Response

end Punter.Http
