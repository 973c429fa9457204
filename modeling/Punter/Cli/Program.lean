/-
# The program

What the program does with its arguments, the environment and the files, as a function: the exit
code, what it prints, and the files afterwards.  There is nothing to tell of a run that goes on for
ever, because the pages of a session do.
-/
import Punter.Cli.Arguments
import Punter.Cli.Output
import Punter.Json.Position
import Punter.Config.Basic
import Punter.Service.Backend
import Punter.Random.Generator

namespace Punter.Cli

variable {τ φ α : Type}

/-- What the program is given. -/
structure Setting (τ : Type) where
  arguments : List String
  /-- The variables of the environment. -/
  lookup : String → Option String
  files : FileTree
  /-- What carries requests to the remote service. -/
  link : τ
  /-- The seed if no other is given. -/
  seed : Nat
  /-- The identifiers that are given to games. -/
  games : Nat → GameId
  /-- The identifiers that the simulated service gives. -/
  names : Simulation.Names
  /-- How many pages of a session are looked at, at most. -/
  horizon : Nat

/-- What comes of a run of the program. -/
structure Result (τ : Type) where
  code : Nat
  stdout : String
  stderr : String
  files : FileTree
  link : τ

/-- The line that names the program and its version. -/
def versionLine : String := "parlay 0.1.0\n"

/-- The line that is printed when the command line makes no sense. -/
def usageLine : String := "error: the arguments make no sense\n"

/-- A file that could not be read or understood. -/
inductive LoadError where
  | unread (path : String) (fault : FileFault)
  | unparsed (path : String) (position : Position) (fault : Fault)

/-- The wording of an error, followed by that of its cause. -/
def LoadError.chain : LoadError → List String
  | unread path f => ["Failed to read config from " ++ path, f.message]
  | unparsed path position f => ["Failed to parse config from " ++ path, position.explain f]

/-- Loads the configuration from a file, or the standard one where none is given. -/
def load [Scalar α] (path : Option String) (files : FileTree) : Except LoadError (Config α) :=
  match path with
  | none => .ok .standard
  | some path =>
    match files.readPath path with
    | .error f => .error (.unread path f)
    | .ok text =>
      let codec : Codec α (Config α) := Config.codec
      (codec.ofText text).mapError fun f => .unparsed path (codec.positionOf text f) f

/-- The configuration with what the command line says. -/
def adjust [Scalar α] (c : Config α) (options : Options) (command : Command) : Config α :=
  let c := match options.behavior with
    | some b => c.withBehavior b
    | none => c
  match command with
  | .train episodes outputDir =>
    { c with training := { c.training with
        episodes := episodes.getD c.training.episodes
        outputDir := outputDir.getD c.training.outputDir } }
  | _ => c

/-- What the commands share. -/
structure Session (τ α : Type) where
  config : Config α
  agent : Agent
  random : Generator
  world : World (Backend τ Generator α) α

/-- What a command prints, or its error and the causes of it. -/
abbrev Printed := Except (List String) String

section Commands

variable [Scalar α] [Http.Link τ]

/-- Runs the training. -/
def train (s : Session τ α) (policy : Policy α) (games : Nat → GameId) (files : FileTree) :
    Option Printed × FileTree × World (Backend τ Generator α) α :=
  let trainer : Trainer := ⟨s.agent, s.config.trainingSettings, games⟩
  match trainer.run ⟨s.config.profile, policy, s.random, s.world, files⟩ with
  | (none, c) => (none, c.files, c.world)
  | (some (.error e), c) => (some (.error e.chain), e.release c.files, c.world)
  | (some (.ok report), c) =>
    match report.save (Path.join s.config.training.outputDir "summary.json") c.files with
    | (.error e, files) => (some (.error e.chain), files, c.world)
    | (.ok (), files) => (some (.ok (reportText report)), files, c.world)

/-- Plays one episode. -/
def episode (s : Session τ α) (policy : Policy α) (game : GameId) :
    Option Printed × World (Backend τ Generator α) α :=
  match s.agent.runEpisode game s.config.profile policy s.random s.world with
  | (none, _, w) => (none, w)
  | (some (.error e), _, w) => (some (.error ["Episode failed", e.message]), w)
  | (some (.ok o), _, w) => (some (.ok (outcomeText o)), w)

/-- Exports the experiences of a session. -/
def exportSession (s : Session τ α) (session : SessionId) (output : String) (files : FileTree) :
    Option Printed × FileTree × World (Backend τ Generator α) α :=
  match s.agent.fetch session s.world with
  | (none, w) => (none, files, w)
  | (some (.error e), w) =>
    (some (.error ["Failed to export session " ++ session.text, e.message]), files, w)
  | (some (.ok es), w) =>
    match Experience.save output es files with
    | (.ok _, files) => (some (.ok ""), files, w)
    | (.error e, files) => (some (.error e.chain), files.release e, w)

/-- Asks whether the service is well. -/
def health (s : Session τ α) : Printed × World (Backend τ Generator α) α :=
  match World.ask .health s.world with
  | (.error e, w) => (.error ["Health check failed", e.message], w)
  | (.ok h, w) => (.ok ("Service status: " ++ h.status ++ "\n"), w)

/-- Carries out a command. -/
def execute (s : Session τ α) (policy : Policy α) (games : Nat → GameId) (command : Command)
    (files : FileTree) : Option Printed × FileTree × World (Backend τ Generator α) α :=
  match command with
  | .train _ _ => train s policy games files
  | .episode =>
    let (r, w) := episode s policy (games 0)
    (r, files, w)
  | .fetch session output => exportSession s session output files
  | .health =>
    let (r, w) := health s
    (some r, files, w)

/-- The service that a configuration asks for. -/
def backend (c : Config α) (simulated : Bool) (seed : Nat) (names : Simulation.Names)
    (link : τ) : Backend τ Generator α :=
  if simulated then
    .simulated (.new c.simulation names (Generator.ofSeed (UInt64.ofNat seed)))
  else .remote ⟨.new c.remote.baseUrl c.remote.apiKey, link⟩

/-- The link after the run of a command. -/
def linkOf (link : τ) : Backend τ Generator α → τ
  | .remote client => client.link
  | .simulated _ => link

/-- Makes sure of the configuration and of the policy of the first episode. -/
def accept (c : Config α) (remote : Bool) : Except (List String) (Policy α) :=
  match c.check remote, c.initialPolicy with
  | .error f, _ => .error f.chain
  | .ok (), .error f => .error [f.message]
  | .ok (), .ok p => .ok p

/-- The configuration for a command, and the policy of the first episode. -/
def prepare (s : Setting τ) (options : Options) (command : Command) :
    Except (List String) (Config α × Policy α) := do
  let c ← (load options.config s.files : Except _ (Config α)).mapError LoadError.chain
  let c := adjust (c.withEnvironment s.lookup) options command
  let policy ← accept c options.simulate.isNone
  return (c, policy)

/-- Runs a command. -/
def runCommand (α : Type) [Scalar α] (s : Setting τ) (options : Options) (command : Command) :
    Option Printed × FileTree × τ :=
  match (prepare s options command : Except _ (Config α × Policy α)) with
  | .error chain => (some (.error chain), s.files, s.link)
  | .ok (c, policy) =>
    let seed := options.seed.getD s.seed
    let pacer := if options.instant.isSome then Pacer.instant else .punctual
    let session : Session τ α :=
      { config := c
        agent := ⟨⟨c.retrier, pacer⟩, c.episodeSettings, s.horizon⟩
        random := .ofSeed (UInt64.ofNat seed)
        world := .start (backend c options.simulate.isSome seed s.names s.link) }
    let (report, files, w) := execute session policy s.games command s.files
    (report, files, linkOf s.link w.service)

/-- Runs the program. -/
def run (α : Type) [Scalar α] (s : Setting τ) : Option (Result τ) :=
  match parse s.arguments with
  | .version => some ⟨0, versionLine, "", s.files, s.link⟩
  | .help => some ⟨0, "", "", s.files, s.link⟩
  | .refused => some ⟨2, "", usageLine, s.files, s.link⟩
  | .run options command =>
    let (printed, files, link) := runCommand α s options command
    printed.map fun
      | .ok out => ⟨0, out, "", files, link⟩
      | .error chain => ⟨1, "", errorText chain, files, link⟩

end Commands

end Punter.Cli
