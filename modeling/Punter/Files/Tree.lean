/-
# File trees

A file tree is a list of directories and files by their places, seen from a working directory.
Files are written and read in it, and moved to other places.
-/
import Punter.Files.Path

namespace Punter

/-- Why an operation on files fails. -/
inductive FileFault where
  | notFound
  | alreadyExists
  | notDirectory
  | isDirectory
  | busy
  /-- Whatever else the system or the device may report. -/
  | device (report : String)
  deriving DecidableEq, Repr

/-- The wording of a fault. -/
def FileFault.message : FileFault → String
  | notFound => "No such file or directory (os error 2)"
  | alreadyExists => "File exists (os error 17)"
  | notDirectory => "Not a directory (os error 20)"
  | isDirectory => "Is a directory (os error 21)"
  | busy => "Device or resource busy (os error 16)"
  | device report => report

/-- What stands at a place of a tree. -/
inductive FileNode where
  | directory
  | file (content : String)
  deriving DecidableEq, Repr

/-- Directories and files by their places. -/
structure FileTree where
  /-- The working directory.  It is there, and so is everything above it. -/
  here : Place
  nodes : List (Place × FileNode)

namespace FileTree

/-- The tree with nothing in it but its working directory. -/
def empty (here : Place) : FileTree := ⟨here, []⟩

/-- What stands at a place. -/
def get? (t : FileTree) (p : Place) : Option FileNode :=
  if p <+: t.here then some .directory else (t.nodes.find? fun n => n.1 = p).map (·.2)

/-- The tree without what stands at a place. -/
def remove (t : FileTree) (p : Place) : FileTree :=
  { t with nodes := t.nodes.filter fun n => n.1 ≠ p }

/-- Puts something at a place. -/
def put (t : FileTree) (p : Place) (n : FileNode) : FileTree :=
  { t with nodes := (t.remove p).nodes ++ [(p, n)] }

/-- The content of the file at a place. -/
def content? (t : FileTree) (p : Place) : Option String :=
  match t.get? p with
  | some (.file c) => some c
  | _ => none

/-- The files of the tree with their contents. -/
def files (t : FileTree) : List (Place × String) :=
  t.nodes.filterMap fun
    | (p, .file c) => some (p, c)
    | (_, .directory) => none

/-! ## Files -/

/-- Makes sure that a file can stand at a place: what leads there has to be directories. -/
def reach (t : FileTree) (above : Place) : Place → Except FileFault Unit
  | [] => .ok ()
  | [_] => .ok ()
  | name :: rest =>
    let here := above ++ [name]
    match t.get? here with
    | some .directory => reach t here rest
    | some (.file _) => .error .notDirectory
    | none => .error .notFound

/-- Writes a file, in place of an old one if there is one. -/
def write (t : FileTree) (p : Place) (content : String) : Except FileFault FileTree := do
  t.reach [] p
  match t.get? p with
  | some .directory => .error .isDirectory
  | _ => return t.put p (.file content)

/-- Reads the file at a place. -/
def read (t : FileTree) (p : Place) : Except FileFault String := do
  t.reach [] p
  match t.get? p with
  | some (.file c) => return c
  | some .directory => .error .isDirectory
  | none => .error .notFound

/-- Moves a file to a place, in place of an old file if there is one. -/
def rename (t : FileTree) (source target : Place) : Except FileFault FileTree := do
  let content ← t.read source
  t.reach [] target
  match t.get? target with
  | some .directory => .error .isDirectory
  | _ => return (t.remove source).put target (.file content)

/-! ## Files by their paths

A path that ends in a slash can only be that of a directory. -/

/-- Whether a path ends in a slash. -/
def endsInSlash (path : String) : Bool := path.toList.getLast? = some '/'

/-- Reads the file at a path. -/
def readPath (t : FileTree) (path : String) : Except FileFault String := do
  let content ← t.read (Path.components t.here path)
  if endsInSlash path then .error .notDirectory else return content

/-- Writes a file at a path. -/
def writePath (t : FileTree) (path content : String) : Except FileFault FileTree :=
  if endsInSlash path then .error .isDirectory
  else t.write (Path.components t.here path) content

/-- Why nothing can be moved to a path that does not end in a name. -/
def nameless (t : FileTree) (path : String) : FileFault :=
  if path.isEmpty then .notFound
  else if endsInSlash path then .notDirectory
  else
    match t.get? (Path.above t.here path) with
    | some .directory => .busy
    | some (.file _) => .notDirectory
    | none => .notFound

/-- Moves a file to a path. -/
def renamePath (t : FileTree) (source : Place) (path : String) : Except FileFault FileTree :=
  if Path.endsInName path then t.rename source (Path.components t.here path)
  else .error (t.nameless path)

/-! ## New files -/

/-- The name of a new file, by number. -/
def temporaryName (n : Nat) : String := ".tmp" ++ Number.numeral n

/-- The first number from `n` on whose name is free in a directory.  The first argument bounds
the number of names that are tried. -/
def freeNumber (t : FileTree) (dir : Place) : Nat → Nat → Nat
  | 0, n => n
  | tries + 1, n =>
    match t.get? (dir ++ [temporaryName n]) with
    | none => n
    | some _ => freeNumber t dir tries (n + 1)

/-- A place in a directory at which nothing stands.  Besides the nodes the working directory may be
in the way, or one above it. -/
def freePlace (t : FileTree) (dir : Place) : Place :=
  dir ++ [temporaryName (t.freeNumber dir (t.nodes.length + 1) 0)]

end FileTree

end Punter
