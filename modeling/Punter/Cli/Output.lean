/-
# What the program prints

Outcomes are printed as lines of a label and a value, reports as a table, and errors with their
causes.
-/
import Punter.Training.Run

namespace Punter.Cli

open Number

variable {α : Type} [Scalar α]

/-- Blanks up to a width. -/
def blanks (width : Nat) (s : String) : String :=
  String.ofList (List.replicate (width - s.length) ' ')

/-- A text at the right of a column. -/
def right (width : Nat) (s : String) : String := blanks width s ++ s

/-- A text at the left of a column. -/
def left (width : Nat) (s : String) : String := s ++ blanks width s

/-- The cells of a line of the table. -/
def row (episode reward epsilon steps final minBet maxBet exported : String) : String :=
  "  ".intercalate [right 7 episode, right 10 reward, right 7 epsilon, right 5 steps,
    left 11 final, right 7 minBet, right 7 maxBet, exported] ++ "\n"

/-- What a line says about the export of an episode. -/
def exportCell (s : Summary α) : String :=
  match s.error, s.exportError, s.exportPath with
  | some e, _, _ => "error: " ++ e
  | none, some e, _ => "export failed: " ++ e
  | none, none, some path => path
  | none, none, none => "-"

/-- The line of an episode. -/
def summaryRow (s : Summary α) : String :=
  row (numeral s.episode) (Scalar.fixedText 3 s.totalReward) (Scalar.fixedText 3 s.epsilon)
    (numeral s.steps) s.finalLabel (Scalar.fixedText 2 s.minBet) (Scalar.fixedText 2 s.maxBet)
    (exportCell s)

/-- A report as a table with a last line about the whole run. -/
def reportText (r : Report α) : String :=
  row "episode" "reward" "epsilon" "steps" "final" "min_bet" "max_bet" "export" ++
    String.join (r.summaries.map summaryRow) ++ "\n" ++
    "Completed " ++ numeral r.completed ++ "/" ++ numeral r.summaries.length ++
    " episodes; final epsilon " ++ Scalar.fixedText 3 r.policy.epsilon ++ ", stakes " ++
    Scalar.fixedText 2 r.profile.minBet ++ ".." ++ Scalar.fixedText 2 r.profile.maxBet ++ "\n"

/-- The outcome of an episode. -/
def outcomeText (o : EpisodeOutcome α) : String :=
  "Session:       " ++ o.session.text ++ "\n" ++
  "Final state:   " ++ o.final.phase.label ++ "\n" ++
  "Termination:   " ++ o.termination.title ++ "\n" ++
  "Steps:         " ++ numeral o.steps ++ "\n" ++
  "Total spins:   " ++ numeral o.final.counters.totalSpins ++ "\n" ++
  "Total payout:  " ++ Scalar.fixedText 2 o.final.counters.totalPayout ++ "\n" ++
  "Experiences:   " ++ numeral o.experiences.length ++ "\n" ++
  "Human-likeness (mean): " ++ Scalar.fixedText 3 o.meanLikeness ++ "\n"

/-! ## Errors -/

/-- A text whose lines after the first are indented. -/
def indented (indent : String) (s : String) : String :=
  ("\n" ++ indent).intercalate (s.splitOn "\n")

/-- The causes with their numbers. -/
def numbered (n : Nat) : List String → String
  | [] => ""
  | c :: cs => "\n" ++ right 5 (numeral n) ++ ": " ++ indented "       " c ++ numbered (n + 1) cs

/-- The causes of an error, numbered if there are several. -/
def causesText : List String → String
  | [] => ""
  | [c] => "\n\nCaused by:\n    " ++ indented "    " c
  | cs => "\n\nCaused by:" ++ numbered 0 cs

/-- An error with its causes. -/
def errorText : List String → String
  | [] => ""
  | e :: causes => "Error: " ++ e ++ causesText causes ++ "\n"

end Punter.Cli
