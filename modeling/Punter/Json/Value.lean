/-
# JSON values

A JSON value over the numbers `α`.  Numbers come in two kinds, as they do in texts: integers
that fit into 64 bits, and all others.  The members of an object keep their order; the objects
of free-form data are put into canonical order by `Json.insert`, by key and with the last
value of a key winning.
-/
import Punter.Number.Scalar

namespace Punter

/-- A JSON value. -/
inductive Json (α : Type) where
  | null
  | bool (b : Bool)
  | int (n : Int)
  | num (x : α)
  | str (s : String)
  | arr (items : List (Json α))
  | obj (members : List (String × Json α))

namespace Json

variable {α : Type}

/-- The value of a number: itself if it is finite, and `null` otherwise. -/
def ofScalar [Scalar α] (x : α) : Json α := if Scalar.isFinite x then num x else null

/-- The value of a count. -/
def ofNat (n : Nat) : Json α := int n

/-- The value of something that may be missing. -/
def ofOption {T : Type} (f : T → Json α) : Option T → Json α
  | none => null
  | some x => f x

/-- Sets the value of a key in a list of members ordered by key. -/
def insert (key : String) (value : Json α) :
    List (String × Json α) → List (String × Json α)
  | [] => [(key, value)]
  | (k, v) :: rest =>
    if key < k then (key, value) :: (k, v) :: rest
    else if key = k then (key, value) :: rest
    else (k, v) :: insert key value rest

/-- The members ordered by key, the last value of each key winning. -/
def canonical (members : List (String × Json α)) : List (String × Json α) :=
  members.foldl (fun acc m => insert m.1 m.2 acc) []

mutual

/-- The same value with the members of all objects in canonical order. -/
def canonicalize : Json α → Json α
  | arr items => arr (canonicalizeItems items)
  | obj members => obj (canonical (canonicalizeMembers members))
  | v => v

/-- Items with the members of all objects in canonical order. -/
def canonicalizeItems : List (Json α) → List (Json α)
  | [] => []
  | x :: xs => canonicalize x :: canonicalizeItems xs

/-- Members whose values have the members of all objects in canonical order. -/
def canonicalizeMembers : List (String × Json α) → List (String × Json α)
  | [] => []
  | (k, v) :: ms => (k, canonicalize v) :: canonicalizeMembers ms

end

/-- The value of a key of an object. -/
def get? (key : String) : Json α → Option (Json α)
  | obj members => (members.find? fun m => m.1 = key).map (·.2)
  | _ => none

end Json

end Punter
