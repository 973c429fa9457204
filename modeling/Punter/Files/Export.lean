/-
# Writing exports and reports

Experiences are exported so that a reader finds either the file of before or the complete new one.
Reports are written in one go.
-/
import Punter.Files.Disk
import Punter.Experience.Lines
import Punter.Training.Report

namespace Punter

/-- Why a file cannot be written. -/
inductive WriteError where
  /-- The directory of an export cannot be made. -/
  | exportDirectory (dir : String) (fault : FileFault)
  /-- There can be no new file in the directory of an export. -/
  | temporary (dir : String) (fault : FileFault)
  /-- The content of an export cannot be written. -/
  | content (fault : FileFault)
  /-- The content of an export does not reach the device. -/
  | flush (fault : FileFault)
  /-- An export cannot be moved into place.  The file that was to be moved is still there. -/
  | placement (path : String) (file : Place) (fault : FileFault)
  /-- The directory of a report cannot be made. -/
  | reportDirectory (dir : String) (fault : FileFault)
  /-- A report cannot be written. -/
  | report (path : String) (fault : FileFault)
  deriving DecidableEq, Repr

/-- The wording of an error, followed by those of its causes. -/
def WriteError.chain : WriteError → List String
  | exportDirectory dir f => ["failed to create export directory " ++ dir, f.message]
  | temporary dir f => ["failed to create temporary file in " ++ dir, f.message]
  | content f => ["failed to write export content", f.message]
  | flush f => ["failed to flush export file", f.message]
  | placement path _ f =>
    ["failed to move export into place at " ++ path,
      "failed to persist temporary file: " ++ f.message, f.message]
  | reportDirectory dir f => ["failed to create " ++ dir, f.message]
  | report path f => ["failed to write report to " ++ path, f.message]

/-- The file that an error holds. -/
def WriteError.held? : WriteError → Option Place
  | placement _ file _ => some file
  | _ => none

/-- Somewhere to put exports. -/
class Storage (φ : Type) where
  /-- Puts a text at a path. -/
  replace : (path content : String) → φ → Except WriteError Unit × φ
  /-- Lets go of an error, and of the file that it holds. -/
  release : WriteError → φ → φ

/-- Removes the file that an error holds. -/
def FileTree.release (e : WriteError) (t : FileTree) : FileTree :=
  match e.held? with
  | some file => t.remove file
  | none => t

namespace Disk

/-- Removes what was made for a while. -/
def discard (temporary : Place) (d : Disk) : Disk := ⟨d.tree.remove temporary, d.faults⟩

/-- Writes a text to a new file, and moves this into place.  A file that cannot be written does not
stay behind; one that cannot be moved goes with the error. -/
def fill (temporary : Place) (path content : String) (d : Disk) : Except WriteError Unit × Disk :=
  match d.change (·.write temporary content) with
  | (.error f, d) => (.error (.content f), d.discard temporary)
  | (.ok (), d) =>
    match d.change .ok with
    | (.error f, d) => (.error (.flush f), d.discard temporary)
    | (.ok (), d) =>
      match d.change (·.renamePath temporary path) with
      | (.error f, d) => (.error (.placement path temporary f), d)
      | (.ok (), d) => (.ok (), d)

/-- Replaces the file at a path, by way of a new file in the same directory. -/
def replace (path content : String) (d : Disk) : Except WriteError Unit × Disk :=
  let dir := Path.folder path
  match d.makeDirectories dir with
  | (.error f, d) => (.error (.exportDirectory dir f), d)
  | (.ok (), d) =>
    let temporary := d.tree.freePlace (Path.components d.tree.here dir)
    match d.change (·.write temporary "") with
    | (.error f, d) => (.error (.temporary dir f), d)
    | (.ok (), d) => d.fill temporary path content

/-- Removes the file that an error holds. -/
def release (e : WriteError) (d : Disk) : Disk := ⟨d.tree.release e, d.faults⟩

instance : Storage Disk := ⟨replace, release⟩

end Disk

namespace FileTree

/-- Replaces the file at a path, on a disk with which nothing goes wrong. -/
def replace (path content : String) (t : FileTree) : Except WriteError Unit × FileTree :=
  let (result, d) := (Disk.sound t).replace path content
  (result, d.tree)

instance : Storage FileTree := ⟨replace, release⟩

end FileTree

namespace Experience

variable {φ α : Type} [Scalar α] [Storage φ]

/-- Exports experiences, and gives their number. -/
def save (path : String) (es : List (Experience α)) (files : φ) :
    Except WriteError Nat × φ :=
  match Storage.replace path (lines es) files with
  | (.ok (), files) => (.ok es.length, files)
  | (.error e, files) => (.error e, files)

end Experience

namespace Report

variable {α : Type} [Scalar α]

/-- Writes a report, after making the directory in which it is to lie. -/
def save (r : Report α) (path : String) (t : FileTree) : Except WriteError Unit × FileTree :=
  let made : Except WriteError Unit × Disk :=
    match Path.directory? path with
    | none => (.ok (), .sound t)
    | some dir =>
      let (result, d) := (Disk.sound t).makeDirectories dir
      (result.mapError (.reportDirectory dir), d)
  match made with
  | (.error e, d) => (.error e, d.tree)
  | (.ok (), d) =>
    match d.tree.writePath path (codec.write r).pretty with
    | .ok t => (.ok (), t)
    | .error f => (.error (.report path f), d.tree)

end Report

end Punter
