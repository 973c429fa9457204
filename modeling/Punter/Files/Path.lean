/-
# Paths

A path is a text; its components are separated by slashes.  Empty components and the component
`.` lead nowhere, and `..` leads back to the parent.

A place is given by the names on the way to it from the root, where a path begins that starts with a
slash.  Other paths begin at the working directory.
-/
import Punter.Number.Digits

namespace Punter

/-- The names on the way from the root to a place. -/
abbrev Place := List String

namespace Path

open Number

/-- A path below another one. -/
def join (dir name : String) : String :=
  if dir.isEmpty || name.startsWith "/" then name
  else if dir.endsWith "/" then dir ++ name
  else dir ++ "/" ++ name

/-- The last characters of a path, in reverse, without a trailing slash or `.` component. -/
def trimEnd : List Char → List Char
  | ['/'] => ['/']
  | '/' :: rest => trimEnd rest
  | '.' :: '/' :: rest => trimEnd ('/' :: rest)
  | cs => cs
termination_by cs => cs.length

/-- The directory in which a path lies; empty for a name alone, and none for the root and for the
empty path. -/
def parent? (path : String) : Option String :=
  let cs := trimEnd path.toList.reverse
  if cs = [] ∨ cs = ['/'] then none
  else some (String.ofList (trimEnd (cs.dropWhile (· ≠ '/'))).reverse)

/-- The directory in which a path lies, if it has a name. -/
def directory? (path : String) : Option String :=
  match parent? path with
  | some "" => none
  | d => d

/-- The directory in which a file at a path lies; the working directory has no other name. -/
def folder (path : String) : String := (directory? path).getD "."

/-- The parts of a path between slashes. -/
def split : List Char → List (List Char)
  | [] => [[]]
  | c :: cs =>
    match split cs with
    | [] => [[c]]
    | part :: parts => if c = '/' then [] :: part :: parts else (c :: part) :: parts

/-- Follows a component.  The root is its own parent. -/
def follow (here : Place) (component : List Char) : Place :=
  if component = [] ∨ component = ['.'] then here
  else if component = ['.', '.'] then here.dropLast
  else here ++ [String.ofList component]

/-- Where a path begins, by the working directory. -/
def origin (here : Place) (path : String) : Place := if path.startsWith "/" then [] else here

/-- Where a path leads, by the working directory. -/
def components (here : Place) (path : String) : Place :=
  (split path.toList).foldl follow (origin here path)

/-- The places that are come through, from a place on, as components are followed. -/
def way (here : Place) : List (List Char) → List Place
  | [] => [here]
  | part :: parts => here :: way (follow here part) parts

/-- The places that a path leads through, and the one to which it leads. -/
def places (here : Place) (path : String) : List Place :=
  way (origin here path) (split path.toList)

/-- Whether a path ends in the name of something. -/
def endsInName (path : String) : Bool :=
  !([[], ['.'], ['.', '.']].contains ((split path.toList).getLastD []))

/-- Where a path leads without its last component. -/
def above (here : Place) (path : String) : Place :=
  (split path.toList).dropLast.foldl follow (origin here path)

/-- The path of a place, from the root on. -/
def ofComponents (p : Place) : String := "/" ++ "/".intercalate p

/-- The name of the file for the experiences of an episode. -/
def episodeName (episode : Nat) : String := "episode_" ++ paddedNumeral 4 episode ++ ".jsonl"

/-- The path of the file for the experiences of an episode. -/
def ofEpisode (dir : String) (episode : Nat) : String := join dir (episodeName episode)

end Path

end Punter
