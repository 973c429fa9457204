/-
# Disks

A disk holds a file tree, and it may fail: whatever is to be changed, the system may report a fault
instead.  What is done to the tree is therefore done change by change, and each of them may be the
last one.

A file is replaced in such a way that it has either its old or its new content: the content is
written to a new file in the same directory, which is then moved into place.  Where it cannot be
moved, it stays for as long as somebody holds on to the error that tells of it.
-/
import Punter.Files.Tree

namespace Punter

/-- A file tree, and what goes wrong with it. -/
structure Disk where
  tree : FileTree
  /-- The faults that the next changes meet, or that they meet none.  Nothing goes wrong with those
  after them. -/
  faults : List (Option FileFault)

namespace Disk

/-- A disk with which nothing goes wrong. -/
def sound (t : FileTree) : Disk := ⟨t, []⟩

/-- Makes a change.  The tree stays as it is where this fails. -/
def change (f : FileTree → Except FileFault FileTree) (d : Disk) : Except FileFault Unit × Disk :=
  let changed : Except FileFault FileTree :=
    match d.faults.head?.join with
    | some fault => .error fault
    | none => f d.tree
  match changed with
  | .ok t => (.ok (), ⟨t, d.faults.tail⟩)
  | .error fault => (.error fault, ⟨d.tree, d.faults.tail⟩)

/-! ## Directories -/

/-- Makes the directories that one comes through, from a place on, as components are followed.
Those that exist are left alone.  What a file in the way is taken for depends on whether it is the
first thing that keeps the last directory from being made. -/
def makeAlong (made : Bool) (here : Place) (d : Disk) :
    List (List Char) → Except FileFault Unit × Disk
  | [] => (.ok (), d)
  | part :: parts =>
    let next := Path.follow here part
    match d.tree.get? next with
    | some .directory => makeAlong made next d parts
    | some (.file _) =>
      (.error (if made || parts.isEmpty then .alreadyExists else .notDirectory), d)
    | none =>
      match d.change fun t => .ok (t.put next .directory) with
      | (.error fault, d) => (.error fault, d)
      | (.ok (), d) => makeAlong true next d parts

/-- Makes a directory together with those that its path leads through. -/
def makeDirectories (dir : String) (d : Disk) : Except FileFault Unit × Disk :=
  d.makeAlong false (Path.origin d.tree.here dir) (Path.split dir.toList)

end Disk

/-- The tree in which a directory stands at a place, and on the way to it. -/
def FileTree.makeDirectories (t : FileTree) (p : Place) : Except FileFault FileTree :=
  let (made, d) := (Disk.sound t).makeAlong false [] (p.map String.toList)
  made.map fun () => d.tree

end Punter
