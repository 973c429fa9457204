/-
# Failures of the service

A call fails because the service rejects it with a code, because no answer arrives, or because
the answer makes no sense.  Only the first kind has a code.
-/
import Punter.Json.Codec

namespace Punter

/-- The codes with which the service rejects a call. -/
inductive ErrorCode where
  | invalidInput
  | notFound
  | stateError
  | walletLimitExceeded
  | rateLimit
  | internalError
  | unauthorized
  /-- Any code that is not known here. -/
  | unknown
  deriving DecidableEq, Repr

namespace ErrorCode

/-- The text of a code. -/
def text : ErrorCode → String
  | invalidInput => "INVALID_INPUT"
  | notFound => "NOT_FOUND"
  | stateError => "STATE_ERROR"
  | walletLimitExceeded => "WALLET_LIMIT_EXCEEDED"
  | rateLimit => "RATE_LIMIT"
  | internalError => "INTERNAL_ERROR"
  | unauthorized => "UNAUTHORIZED"
  | unknown => "UNKNOWN"

/-- The name that a code has among the codes. -/
def name : ErrorCode → String
  | invalidInput => "InvalidInput"
  | notFound => "NotFound"
  | stateError => "StateError"
  | walletLimitExceeded => "WalletLimitExceeded"
  | rateLimit => "RateLimit"
  | internalError => "InternalError"
  | unauthorized => "Unauthorized"
  | unknown => "Unknown"

/-- A name in capitals, with underscores in front of the capitals that it had inside. -/
def screaming (name : String) : String :=
  String.ofList <| name.toList.zipIdx.flatMap fun (c, i) =>
    if 0 < i ∧ c.isUpper then ['_', c.toUpper] else [c.toUpper]

/-- What a code is in JSON. -/
def label (c : ErrorCode) : String := screaming c.name

/-- The codes. -/
def codes : List ErrorCode :=
  [invalidInput, notFound, stateError, walletLimitExceeded, rateLimit, internalError,
    unauthorized, unknown]

/-- All codes under their labels. -/
def all : List (String × ErrorCode) := codes.map fun c => (c.label, c)

/-- The code with a label. -/
def ofText (s : String) : ErrorCode :=
  match all.find? (fun c => c.1 = s) with
  | some c => c.2
  | none => unknown

/-- Codes in JSON are their labels.  Any other text is an unknown code. -/
def codec {α : Type} [Scalar α] : Codec α ErrorCode := .variants all (some unknown) label

end ErrorCode

/-- A failed call. -/
inductive ServiceError where
  /-- The service rejects the call. -/
  | rejected (code : ErrorCode) (status : Option Nat) (reason : String)
  /-- No answer arrives. -/
  | transport (reason : String)
  /-- The answer makes no sense. -/
  | undecodable (reason : String)
  deriving DecidableEq, Repr

namespace ServiceError

/-- The code of a failure, if it has one. -/
def code? : ServiceError → Option ErrorCode
  | rejected code _ _ => some code
  | _ => none

/-- The wording of a failure. -/
def message : ServiceError → String
  | rejected code _ reason => "service rejected request (" ++ code.text ++ "): " ++ reason
  | transport reason => "transport failure: " ++ reason
  | undecodable reason => "malformed service response: " ++ reason

end ServiceError

/-- How the service describes a rejected call. -/
structure Rejection (α : Type) where
  code : String
  message : String
  details : Option (Json α)

namespace Rejection

variable {α : Type} [Scalar α]

/-- Descriptions of rejected calls in JSON. -/
def codec : Codec α (Rejection α) :=
  .record "struct ErrorDetail"
    (.cons (.required "code" .string) <|
     .cons (.required "message" .string) <|
     .cons ((Field.optional "details" .any).whenSome.orAbsent none) .nil)
    (fun (code, message, details, _) => ⟨code, message, details⟩)
    (fun r => (r.code, r.message, r.details, ()))

/-- The body of an answer that rejects a call. -/
def bodyCodec : Codec α (Rejection α) :=
  .record "struct ErrorResponse"
    (.cons (.required "error" codec) .nil)
    (·.1)
    (fun r => (r, ()))

end Rejection

/-- The state of health of the service. -/
structure Health where
  status : String
  deriving DecidableEq, Repr

/-- States of health in JSON. -/
def Health.codec {α : Type} [Scalar α] : Codec α Health :=
  .record "struct HealthResponse"
    (.cons (.required "status" .string) .nil)
    (fun (status, _) => ⟨status⟩)
    (fun h => (h.status, ()))

end Punter
