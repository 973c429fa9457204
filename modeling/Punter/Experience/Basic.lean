/-
# Experiences

The service records every action as an experience: the state before it, the action, the reward,
the state after it, and whether the session had ended then.  States and actions are free-form.

A `Transition` is the same in the form in which experiences are exported.
-/
import Punter.Time.Timestamp
import Punter.Session

namespace Punter

/-- A recorded action. -/
structure Experience (α : Type) where
  id : Uuid
  session : SessionId
  state : Json α
  action : Json α
  reward : α
  nextState : Json α
  done : Bool
  recorded : Option Timestamp

/-- Experiences in JSON. -/
def Experience.codec {α : Type} [Scalar α] : Codec α (Experience α) :=
  .record "struct ExperienceRecord"
    (.cons (.required "id" Uuid.codec) <|
     .cons (.required "sessionId" Uuid.codec) <|
     .cons (.required "state" .any) <|
     .cons (.required "action" .any) <|
     .cons (.required "reward" .scalar) <|
     .cons (.required "nextState" .any) <|
     .cons (.required "done" .bool) <|
     .cons (((Field.optional "createdAt" Timestamp.codec).whenSome.orAbsent none).orNamed
       "timestamp") .nil)
    (fun (id, session, state, action, reward, nextState, done, recorded, _) =>
      ⟨id, session, state, action, reward, nextState, done, recorded⟩)
    (fun e => (e.id, e.session, e.state, e.action, e.reward, e.nextState, e.done, e.recorded, ()))

/-- A page of exported experiences. -/
structure Page (α : Type) where
  experiences : List (Experience α)

/-- Pages in JSON. -/
def Page.codec {α : Type} [Scalar α] : Codec α (Page α) :=
  .record "struct ExportResponse"
    (.cons (.required "experiences" (.list Experience.codec)) .nil)
    (fun (experiences, _) => ⟨experiences⟩)
    (fun p => (p.experiences, ()))

/-- A step of an episode as learners from recorded data expect it. -/
structure Transition (α : Type) where
  obs : Json α
  action : Json α
  reward : α
  nextObs : Json α
  terminated : Bool
  truncated : Bool
  info : List (String × Json α)

namespace Transition

variable {α : Type}

/-- The step that an experience records.  Episodes are never cut short. -/
def ofExperience (e : Experience α) : Transition α :=
  ⟨e.state, e.action, e.reward, e.nextState, e.done, false, []⟩

/-- Steps in JSON. -/
def codec [Scalar α] : Codec α (Transition α) :=
  .record "struct GymnasiumStep"
    (.cons (.required "obs" .any) <|
     .cons (.required "action" .any) <|
     .cons (.required "reward" .scalar) <|
     .cons (.required "next_obs" .any) <|
     .cons (.required "terminated" .bool) <|
     .cons (.required "truncated" .bool) <|
     .cons (.required "info" .anyObject) .nil)
    (fun (obs, action, reward, nextObs, terminated, truncated, info, _) =>
      ⟨obs, action, reward, nextObs, terminated, truncated, info⟩)
    (fun t => (t.obs, t.action, t.reward, t.nextObs, t.terminated, t.truncated, t.info, ()))

end Transition

end Punter
