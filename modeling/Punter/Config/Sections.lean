/-
# Configurations

A configuration has a section for each part of the program.  Every section and every field may be
left out, and then has a standard value.
-/
import Punter.Json.Tagged
import Punter.Profile.Adapt
import Punter.Policy
import Punter.Resilience.Retry
import Punter.Simulation.Settings
import Punter.Text.Uuid

namespace Punter.Config

variable {α : Type} [Scalar α]

/-- How the remote service is reached. -/
structure Remote where
  baseUrl : String
  apiKey : String
  /-- How long a call may take, in seconds. -/
  timeout : Nat
  /-- The game to play; a fresh one for each episode if none is given. -/
  game : Option Uuid
  deriving DecidableEq

namespace Remote

/-- The section where nothing is said. -/
def standard : Remote := ⟨"", "", 30, none⟩

/-- The section in JSON. -/
def codec : Codec α Remote :=
  .record "struct ServiceConfig"
    (.cons (.standard "base_url" .string standard.baseUrl) <|
     .cons (.standard "api_key" .string standard.apiKey) <|
     .cons (.standard "timeout_secs" .count64 standard.timeout) <|
     .cons (.standard "game_id" Uuid.codec.option standard.game) .nil)
    (fun (baseUrl, apiKey, timeout, game, _) => ⟨baseUrl, apiKey, timeout, game⟩)
    (fun s => (s.baseUrl, s.apiKey, s.timeout, s.game, ()))

end Remote

namespace Retry

/-- The field beside those of the backoff. -/
def codesName : String := "fatal_codes"

/-- The list of fatal codes in JSON. -/
def codesCodec : Codec α (List ErrorCode) := .list ErrorCode.codec

/-- Reads the fatal codes from the members of an object, and sets all other members aside. -/
def takeCodes (r : Reading) (found : Option (List ErrorCode)) :
    List (Outline α × Outline α) →
      Except Fault (Option (List ErrorCode) × List (Outline α × Outline α))
  | [] => .ok (found, [])
  | (k, o) :: rest => do
    let key ← k.key
    if key = codesName then
      match found with
      | some _ => .error (.mismatch (.duplicateField codesName))
      | none =>
        let codes ← codesCodec.read r o
        takeCodes r (some codes) rest
    else
      Codec.setAside r o
      let (codes, others) ← takeCodes r found rest
      return (codes, (k, o) :: others)

/-- The section in JSON.  The fields of the backoff and the fatal codes stand side by side. -/
def codec : Codec α Retrier where
  read r o := match o with
    | .object members ending => do
      let r ← r.enter
      let (codes, others) ← takeCodes r none members
      Outline.finish ending ()
      let fields : Fields α _ _ := Backoff.fields
      let slots ← fields.fillAll ⟨.buffer, r.depth⟩ fields.empty others
      let values ← fields.complete slots
      return ⟨Backoff.ofValues values, ⟨codes.getD Classifier.standardCodes⟩⟩
    | o => o.refuse "struct RetryConfig"
  write s :=
    .obj (Backoff.fields.members s.backoff.values ++
      [(codesName, codesCodec.write s.classifier.fatal)])

end Retry

namespace Breaker

/-- The standard number of failures at which the breaker opens. -/
def standard : Nat := 5

/-- The section in JSON. -/
def codec : Codec α Nat :=
  .record "struct BreakerConfig"
    (.cons (.standard "threshold" .count32 standard) .nil)
    (·.1)
    (fun n => (n, ()))

end Breaker

/-- The policy of the first episode. -/
structure Start (α : Type) where
  epsilon : α
  decayRate : α
  deriving DecidableEq, Repr

namespace Start

/-- The section where nothing is said. -/
def standard : Start α := ⟨Policy.standard.epsilon, Policy.standard.decayRate⟩

/-- The section in JSON. -/
def codec : Codec α (Start α) :=
  let d : Start α := standard
  .record "struct PolicyConfig"
    (.cons (.standard "initial_epsilon" .scalar d.epsilon) <|
     .cons (.standard "decay_rate" .scalar d.decayRate) .nil)
    (fun (epsilon, decayRate, _) => ⟨epsilon, decayRate⟩)
    (fun s => (s.epsilon, s.decayRate, ()))

end Start

/-- How training runs go. -/
structure Training where
  episodes : Nat
  outputDir : String
  maxSteps : Nat
  /-- How many experiences are asked for at once. -/
  pageSize : Nat
  /-- How many rewards the adaptation looks at. -/
  window : Nat
  abortOnError : Bool
  /-- A length for all pauses, in milliseconds. -/
  fixedDelay : Option Nat
  deriving DecidableEq, Repr

namespace Training

/-- The section where nothing is said. -/
def standard : Training :=
  ⟨10, "data/episodes", 500, 1000, Profile.standardWindow, true, none⟩

/-- The section in JSON. -/
def codec : Codec α Training :=
  .record "struct TrainingConfig"
    (.cons (.standard "episodes" .size standard.episodes) <|
     .cons (.standard "output_dir" .path standard.outputDir) <|
     .cons (.standard "max_steps" .size standard.maxSteps) <|
     .cons (.standard "export_page_size" .count32 standard.pageSize) <|
     .cons (.standard "adaptation_window" .size standard.window) <|
     .cons (.standard "abort_on_error" .bool standard.abortOnError) <|
     .cons (.standard "delay_override_ms" (Codec.option .count64) standard.fixedDelay) .nil)
    (fun (episodes, outputDir, maxSteps, pageSize, window, abortOnError, fixedDelay, _) =>
      ⟨episodes, outputDir, maxSteps, pageSize, window, abortOnError, fixedDelay⟩)
    (fun s => (s.episodes, s.outputDir, s.maxSteps, s.pageSize, s.window, s.abortOnError,
      s.fixedDelay, ()))

end Training

end Punter.Config
