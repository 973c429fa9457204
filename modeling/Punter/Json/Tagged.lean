/-
# Tagged values

A value of a tagged type is an object in which one member, the tag, names the variant, or an
array whose first item does.  The tag may stand anywhere in the object, so all other members are
set aside and read when the variant is known.
-/
import Punter.Json.Codec

namespace Punter.Codec

variable {α T : Type} [Scalar α]

/-- Makes sure that a value can be set aside. -/
def setAside (r : Reading) (o : Outline α) : Except Fault Unit := do
  let _ ← o.toJson r.depth

/-- The variant named by a tag. -/
def tagValue (all : List (String × T)) (o : Outline α) : Except Fault T :=
  match o with
  | .text (.ok name) => variantOf all none name
  | o => o.refuse "variant identifier"

/-- Finds the tag among the members of an object, and sets all others aside. -/
def takeTag (r : Reading) (tag : String) (all : List (String × T)) (found : Option T) :
    List (Outline α × Outline α) → Except Fault (Option T × List (Outline α × Outline α))
  | [] => .ok (found, [])
  | (k, o) :: rest => do
    let key ← k.key
    if key = tag then
      match found with
      | some _ => .error (.mismatch (.duplicateField tag))
      | none =>
        let v ← tagValue all o
        takeTag r tag all (some v) rest
    else
      setAside r o
      let (t, others) ← takeTag r tag all found rest
      return (t, (k, o) :: others)

/-- Makes sure that all items can be set aside. -/
def setAllAside (r : Reading) : List (Outline α) → Except Fault Unit
  | [] => .ok ()
  | o :: os => do
    setAside r o
    setAllAside r os

/-- Reads the tag of a value that messages name `what`, and gives the variant together with the
rest of the value. -/
def readTagged (what tag : String) (all : List (String × T)) (r : Reading) (o : Outline α) :
    Except Fault (T × Outline α) :=
  match o with
  | .object members ending => do
    let r ← r.enter
    let (t, others) ← takeTag r tag all none members
    Outline.finish ending ()
    match t with
    | some t => return (t, .object others none)
    | none => .error (.mismatch (.missingField tag))
  | .array [] ending => do
    let _ ← r.enter
    Outline.finish ending ()
    .error (.mismatch (.missingField tag))
  | .array (o :: rest) ending => do
    let r ← r.enter
    let t ← tagValue all o
    setAllAside r rest
    Outline.finish ending (t, .array rest none)
  | o => o.refuse what

/-- Reads the rest of a variant that carries nothing: any object, or an empty array. -/
def readNothing (o : Outline α) : Except Fault Unit :=
  match o with
  | .array (o :: rest) _ =>
    .error (.mismatch (.invalidLength (o :: rest).length (elements 0 ++ " in sequence")))
  | _ => .ok ()

end Punter.Codec
