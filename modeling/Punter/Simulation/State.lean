/-
# The simulated service

The service holds sessions and, apart from them, their experiences.  Of the sessions that are
completed a set number stay, those completed last; with each further one the oldest is dropped
together with its experiences.

Failures can be queued for each kind of call; a queued failure is answered once, before the call
has any other effect than being counted.
-/
import Punter.Number.Counts
import Punter.Service.Call
import Punter.Simulation.Game
import Punter.Simulation.Log

namespace Punter.Simulation

/-- The kinds of call for which failures can be queued. -/
inductive CallKind where
  | create
  | get
  | play
  | page
  deriving DecidableEq, Repr

/-- One value for each kind of call. -/
structure PerCall (T : Type) where
  create : T
  get : T
  play : T
  page : T
  deriving DecidableEq, Repr

namespace PerCall

variable {T : Type}

/-- The same value for all kinds. -/
def all (v : T) : PerCall T := ⟨v, v, v, v⟩

/-- The value of a kind. -/
def of (p : PerCall T) : CallKind → T
  | .create => p.create
  | .get => p.get
  | .play => p.play
  | .page => p.page

/-- Sets the value of a kind. -/
def set (p : PerCall T) (k : CallKind) (v : T) : PerCall T :=
  match k with
  | .create => { p with create := v }
  | .get => { p with get := v }
  | .play => { p with play := v }
  | .page => { p with page := v }

@[simp] theorem of_set (p : PerCall T) (k l : CallKind) (v : T) :
    (p.set k v).of l = if l = k then v else p.of l := by
  cases k <;> cases l <;> rfl

end PerCall

/-- A session that the service holds. -/
structure Held (α : Type) where
  id : SessionId
  game : Game α

/-- Puts a session that is held in another state. -/
def Held.put {α : Type} (id : SessionId) (game : Game α) : List (Held α) → List (Held α)
  | [] => []
  | h :: hs => if h.id = id then { h with game := game } :: hs else h :: put id game hs

/-- The identifiers that the service gives to sessions and experiences, by their rank. -/
structure Names where
  session : Nat → SessionId
  experience : Nat → Uuid

/-- The state of the service. -/
structure State (γ α : Type) where
  settings : Settings α
  names : Names
  chances : γ
  /-- The sessions in the order in which they were opened. -/
  held : List (Held α)
  records : Log α
  /-- The completed sessions that are held, the oldest first. -/
  finished : List SessionId
  failures : PerCall (List ServiceError)
  /-- How often each kind of call was made, as a number of 32 bits. -/
  calls : PerCall Nat
  /-- How many sessions have been opened. -/
  opened : Nat
  /-- How many experiences have been recorded. -/
  recorded : Nat

namespace State

variable {γ α : Type}

/-- A service that holds nothing. -/
def new (settings : Settings α) (names : Names) (chances : γ) : State γ α :=
  ⟨settings, names, chances, [], [], [], .all [], .all 0, 0, 0⟩

/-- Queues failures for a kind of call. -/
def inject (s : State γ α) (k : CallKind) (es : List ServiceError) : State γ α :=
  { s with failures := s.failures.set k (s.failures.of k ++ es) }

/-- Counts a call, and takes a queued failure if there is one. -/
def enter (s : State γ α) (k : CallKind) : Except ServiceError Unit × State γ α :=
  let s := { s with calls := s.calls.set k (Number.next32 (s.calls.of k)) }
  match s.failures.of k with
  | [] => (.ok (), s)
  | e :: es => (.error e, { s with failures := s.failures.set k es })

/-- The session with an identifier. -/
def find? (s : State γ α) (id : SessionId) : Option (Held α) :=
  s.held.find? fun h => h.id = id

/-- The failure of a call for a session that is not held. -/
def notFound (id : SessionId) : ServiceError :=
  .rejected .notFound none ("session " ++ id.text ++ " not found")

/-! ## The calls -/

variable [Scalar α]

/-- Opens a session. -/
def create (s : State γ α) (game : GameId) (player : Player α) : Opened × State γ α :=
  let id := s.names.session s.opened
  let held := s.held.filter (fun h => h.id ≠ id) ++ [⟨id, .new s.settings game player⟩]
  (⟨id, .initialized⟩, { s with held := held, opened := s.opened + 1 })

/-- Reads a session. -/
def get (s : State γ α) (id : SessionId) : Except ServiceError (Observation α) :=
  match s.find? id with
  | some h => .ok (h.game.observation none)
  | none => .error (notFound id)

/-- A page of the experiences of a session. -/
def page (s : State γ α) (id : SessionId) (limit offset : Nat) :
    Except ServiceError (List (Experience α)) :=
  match s.find? id with
  | some _ => .ok (((s.records.of id).drop offset).take (min limit Call.maxPage))
  | none => .error (notFound id)

/-- The experience of a turn of a session, which is given as it was before the turn.  An action can
always be written, so that no experience is missing for a turn that was made. -/
def record (s : State γ α) (now : Duration) (h : Held α) (play : Play α) (t : Turn α) :
    Experience α where
  id := s.names.experience s.recorded
  session := h.id
  state := h.game.snapshot
  action := (Action.codec.write play.action).canonicalize
  reward := t.reward s.settings play.humanLikeness
  nextState := t.after.snapshot
  done := t.after.phase.isTerminal
  recorded := some (.ofNanos now.nanos)

/-- Counts a session as completed, and drops the oldest completed ones beyond those that are to
be kept. -/
def retire (s : State γ α) (id : SessionId) : State γ α :=
  let finished := s.finished ++ [id]
  let excess := finished.length - s.settings.retained
  let dropped := finished.take excess
  { s with
    finished := finished.drop excess
    held := s.held.filter fun h => !dropped.contains h.id
    records := s.records.drop dropped }

/-- Plays an action.  Session and source of chances are left as the game has left them, whether or
not it has accepted the action. -/
def play [Chance γ α] (s : State γ α) (now : Duration) (id : SessionId) (play : Play α) :
    Except ServiceError (Observation α) × State γ α :=
  match s.find? id with
  | none => (.error (notFound id), s)
  | some h =>
    let (outcome, game, chances) := h.game.play s.settings play.action s.chances
    let s := { s with held := Held.put id game s.held, chances := chances }
    match outcome with
    | .error e => (.error e, s)
    | .ok t =>
      let records := s.records.push id (s.record now h play t)
      let s := { s with records := records, recorded := s.recorded + 1 }
      let s := if t.after.phase.isTerminal && !h.game.phase.isTerminal then s.retire id else s
      (.ok (t.after.observation (some t.result)), s)

/-- The answer to a call. -/
def answer [Chance γ α] (c : Call α) (now : Duration) (s : State γ α) :
    Except ServiceError c.Answer × State γ α :=
  match c with
  | .create game player =>
    match s.enter .create with
    | (.error e, s) => (.error e, s)
    | (.ok (), s) =>
      let (opened, s) := s.create game player
      (.ok opened, s)
  | .get id =>
    match s.enter .get with
    | (.error e, s) => (.error e, s)
    | (.ok (), s) => (s.get id, s)
  | .play id p =>
    match s.enter .play with
    | (.error e, s) => (.error e, s)
    | (.ok (), s) => s.play now id p
  | .page id limit offset =>
    match s.enter .page with
    | (.error e, s) => (.error e, s)
    | (.ok (), s) => (s.page id limit offset, s)
  | .health => (.ok ⟨"healthy"⟩, s)

instance [Chance γ α] : Service (State γ α) α := ⟨answer⟩

end State

end Punter.Simulation
