/-
# The command

The outermost layer: it collects the arguments, the environment, the files that a run can look at
and fresh random numbers, calls `Cli.run`, and carries out what comes of it.  There is no link to
a remote service here, so that only the simulated one can be reached.
-/
import Punter.Cli.Program

namespace Punter.Cli

/-- What stands on the disk at a place. -/
def nodeAt (p : Place) : IO (Option FileNode) := do
  try
    let path ← IO.FS.realPath (Path.ofComponents p)
    if ← path.isDir then return some .directory
    else return some (.file (← IO.FS.readFile path))
  catch _ => return none

/-- A tree together with what stands on the disk at places. -/
def withPlaces (t : FileTree) (places : List Place) : IO FileTree :=
  places.foldlM (fun t here => do
    match ← nodeAt here with
    | some .directory => return (t.makeDirectories here).toOption.getD t
    | some (.file content) => return t.put here (.file content)
    | none => return t) t

/-- A tree together with what a directory of the disk contains. -/
def withEntries (t : FileTree) (dir : Place) : IO FileTree := do
  try
    let path ← IO.FS.realPath (Path.ofComponents dir)
    (← path.readDir).foldlM (fun t entry => withPlaces t [dir ++ [entry.fileName]]) t
  catch _ => return t

/-- Brings the disk from one tree to another one. -/
def carryOut (before after : FileTree) : IO Unit :=
  after.nodes.forM fun (p, node) => do
    if before.get? p ≠ some node then
      match node with
      | .directory => IO.FS.createDirAll (Path.ofComponents p)
      | .file content => IO.FS.writeFile (Path.ofComponents p) content

/-- The path of the configuration that a command line names. -/
def configPath (arguments : List String) : Option String :=
  match parse arguments with
  | .run options _ => options.config
  | _ => none

/-- The directory in which a run writes, if it does. -/
def outputDirectory {τ : Type} (s : Setting τ) : Option String :=
  match parse s.arguments with
  | .run options command =>
    match (prepare s options command : Except _ (Config Float × Policy Float)), command with
    | .ok (c, _), .train _ _ => some c.training.outputDir
    | .ok _, .fetch _ output => some ((Path.directory? output).getD "")
    | _, _ => none
  | _ => none

/-- The place of the working directory. -/
def workingDirectory : IO Place := do
  return Path.components [] (← IO.currentDir).toString

/-- Identifiers made at random, by their rank after a first one. -/
def freshIds (seed n : Nat) : Uuid :=
  let (high, g) := (Generator.ofSeed (UInt64.ofNat (seed + n))).next
  let (low, _) := g.next
  .ofRandom (high.toBitVec ++ low.toBitVec)

/-- A random number of 64 bits. -/
def freshSeed : IO Nat := IO.rand 0 (UInt64.size - 1)

end Punter.Cli

open Punter Punter.Cli

/-- Runs the program. -/
def main (arguments : List String) : IO UInt32 := do
  let key ← IO.getEnv Config.keyVariable
  let url ← IO.getEnv Config.urlVariable
  let lookup (name : String) : Option String :=
    if name = Config.keyVariable then key
    else if name = Config.urlVariable then url
    else none
  let here ← workingDirectory
  let config ← match configPath arguments with
    | some path => withPlaces (.empty here) (Path.places here path)
    | none => pure (.empty here)
  let names : Simulation.Names := ⟨freshIds (← freshSeed), freshIds (← freshSeed)⟩
  let setting : Setting Http.NoLink :=
    ⟨arguments, lookup, config, ⟨⟩, ← freshSeed, freshIds (← freshSeed), names, UInt64.size⟩
  let files ← match outputDirectory setting with
    | some dir =>
      withEntries (← withPlaces config (Path.places here dir)) (Path.components here dir)
    | none => pure config
  match run Float { setting with files := files } with
  | none => return 1
  | some result =>
    carryOut files result.files
    IO.print result.stdout
    IO.eprint result.stderr
    return UInt32.ofNat result.code
