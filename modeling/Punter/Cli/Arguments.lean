/-
# Arguments

The command line consists of options and one command.  General options may stand before or after
the command; there they win over those before it.  An option is given at most once on either side.
-/
import Punter.Profile
import Punter.Text.Uuid

namespace Punter.Cli

open Number

/-- The options that all commands have. -/
structure Options where
  config : Option String
  simulate : Option Unit
  seed : Option Nat
  instant : Option Unit
  behavior : Option Behavior

namespace Options

/-- No option is given. -/
def none : Options := ⟨.none, .none, .none, .none, .none⟩

/-- Options after the command, and those before it where they are not given after it. -/
def orElse (after before : Options) : Options where
  config := after.config <|> before.config
  simulate := after.simulate <|> before.simulate
  seed := after.seed <|> before.seed
  instant := after.instant <|> before.instant
  behavior := after.behavior <|> before.behavior

end Options

/-- A command. -/
inductive Command where
  | train (episodes : Option Nat) (outputDir : Option String)
  | episode
  | fetch (session : SessionId) (output : String)
  | health

/-- What a command line asks for. -/
inductive Wish where
  | run (options : Options) (command : Command)
  | version
  | help
  /-- The command line makes no sense. -/
  | refused

/-! ## Values -/

/-- Reads a number of at most 64 bits. -/
def readCount (s : String) : Option Nat :=
  let ds := match s.toList with
    | '+' :: ds => ds
    | ds => ds
  if ds.isEmpty ∨ !ds.all isDigit ∨ UInt64.size ≤ ofDigits ds then none else some (ofDigits ds)

/-- Reads a path. -/
def readPath (s : String) : Option String := if s.isEmpty then none else some s

/-- The names of behaviors on the command line. -/
def behaviors : List (String × Behavior) :=
  [("conservative", .conservative), ("aggressive", .aggressive),
    ("mixed-adaptive", .mixedAdaptive)]

/-- Reads a behavior. -/
def readBehavior (s : String) : Option Behavior :=
  (behaviors.find? fun b => b.1 = s).map (·.2)

/-! ## Commands in progress -/

/-- The commands by name. -/
inductive CommandName where
  | train
  | episode
  | fetch
  | health
  deriving DecidableEq

/-- The names of the commands. -/
def commandNames : List (String × CommandName) :=
  [("train", .train), ("episode", .episode), ("export", .fetch), ("health", .health)]

/-- A command line as far as it has been read. -/
structure Draft where
  before : Options
  after : Options
  command : Option CommandName
  episodes : Option Nat
  outputDir : Option String
  session : Option SessionId
  output : Option String

namespace Draft

/-- Nothing has been read. -/
def empty : Draft := ⟨.none, .none, none, none, none, none, none⟩

/-- The general options at the current side of the command. -/
def options (d : Draft) : Options := if d.command.isSome then d.after else d.before

/-- Sets the general options at the current side of the command. -/
def setOptions (d : Draft) (o : Options) : Draft :=
  if d.command.isSome then { d with after := o } else { d with before := o }

/-- Sets something that is not set yet. -/
def once {T : Type} (old : Option T) (new : Option T) (f : Option T → Draft) : Option Draft :=
  match old, new with
  | none, some v => some (f (some v))
  | _, _ => none

/-- Sets the value of an option that takes one.  `none` when the name is not that of such an
option here. -/
def setValue (d : Draft) (name : String) : Option (String → Option Draft) :=
  let o := d.options
  match name, d.command with
  | "config", _ =>
    some fun v => once o.config (readPath v) fun v => d.setOptions { o with config := v }
  | "seed", _ =>
    some fun v => once o.seed (readCount v) fun v => d.setOptions { o with seed := v }
  | "behavior", _ =>
    some fun v => once o.behavior (readBehavior v) fun v => d.setOptions { o with behavior := v }
  | "episodes", some .train =>
    some fun v => once d.episodes (readCount v) fun v => { d with episodes := v }
  | "output-dir", some .train =>
    some fun v => once d.outputDir (readPath v) fun v => { d with outputDir := v }
  | "session-id", some .fetch =>
    some fun v => once d.session (Uuid.parse? v) fun v => { d with session := v }
  | "output", some .fetch =>
    some fun v => once d.output (readPath v) fun v => { d with output := v }
  | _, _ => none

/-- Sets an option that takes no value.  `none` when the name is not that of such an option. -/
def setFlag (d : Draft) (name : String) : Option (Option Draft) :=
  let o := d.options
  match name with
  | "mock" => some (once o.simulate (some ()) fun v => d.setOptions { o with simulate := v })
  | "instant" => some (once o.instant (some ()) fun v => d.setOptions { o with instant := v })
  | _ => none

/-- The command, if everything that it needs has been given. -/
def finish (d : Draft) : Wish :=
  let options := d.after.orElse d.before
  match d.command, d.session with
  | some .train, _ => .run options (.train d.episodes d.outputDir)
  | some .episode, _ => .run options .episode
  | some .fetch, some session =>
    .run options (.fetch session (d.output.getD "data/export.jsonl"))
  | some .health, _ => .run options .health
  | _, _ => .refused

/-- Splits a text at the first equals sign. -/
def atEquals (cs : List Char) : String × Option String :=
  (String.ofList (cs.takeWhile (· ≠ '=')),
    match cs.dropWhile (· ≠ '=') with
    | [] => none
    | _ :: value => some (String.ofList value))

/-- Whether an argument cannot be the value of an option. -/
def looksLikeOption (s : String) : Bool := s.startsWith "-" && s ≠ "-"

/-- Reads arguments. -/
def read (d : Draft) : List String → Wish
  | [] => d.finish
  | arg :: rest =>
    match arg.toList with
    | ['-', '-'] => if rest.isEmpty then d.finish else .refused
    | '-' :: '-' :: cs =>
      let (name, value) := atEquals cs
      if name = "help" ∧ value.isNone then .help
      else if name = "version" ∧ value.isNone ∧ d.command.isNone then .version
      else match d.setFlag name, d.setValue name, value with
        | some (some d), _, none => read d rest
        | none, some set, some v =>
          match set v with
          | some d => read d rest
          | none => .refused
        | none, some set, none =>
          match rest with
          | [] => .refused
          | v :: rest =>
            if looksLikeOption v then .refused
            else match set v with
              | some d => read d rest
              | none => .refused
        | _, _, _ => .refused
    | '-' :: 'h' :: _ => .help
    | '-' :: 'V' :: _ => if d.command.isNone then .version else .refused
    | _ =>
      match d.command, commandNames.find? fun c => c.1 = arg with
      | none, some (_, c) => read { d with command := some c } rest
      | none, none => if arg = "help" then .help else .refused
      | some _, _ => .refused

end Draft

/-- Reads a command line. -/
def parse (args : List String) : Wish := Draft.empty.read args

end Punter.Cli
