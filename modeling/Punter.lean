/-
# Punter

An agent that plays sessions of a game of chance by way of a remote service: it decides, paces
itself, tries again where calls fail, trains over many episodes, and exports what it experienced.
A simulated service stands in for the remote one.
-/
import Punter.Cli.Main
import Punter.Service.Scripted
import Punter.Proofs.Episode.Pages
import Punter.Proofs.Episode.Transparency
import Punter.Proofs.Simulation.Failures
import Punter.Proofs.Simulation.Ledger
import Punter.Proofs.Simulation.Lifecycle
import Punter.Proofs.Simulation.Retention
import Punter.Proofs.Simulation.Spins
import Punter.Proofs.Resilience.Blocks
import Punter.Proofs.Resilience.Settling
import Punter.Proofs.Resilience.Streaks
import Punter.Proofs.Episode.Protocol
import Punter.Proofs.Episode.Outcome
import Punter.Proofs.Training.Threading
import Punter.Proofs.Number.Rounding
import Punter.Proofs.Profile.Moves
import Punter.Proofs.Training.Bounds
import Punter.Proofs.Training.Stopping
import Punter.Proofs.Episode.Recorded
import Punter.Proofs.Training.Solvency
import Punter.Proofs.Training.Plays
import Punter.Proofs.Episode.Pace
import Punter.Proofs.Experience.Lines
import Punter.Proofs.Experience.Variance
import Punter.Proofs.Episode.Planned
import Punter.Proofs.Training.Exports
import Punter.Proofs.Files.Saves
import Punter.Proofs.Http.Answers
import Punter.Proofs.Service.Wire
import Punter.Proofs.Config.Partial
import Punter.Proofs.Config.Validity
