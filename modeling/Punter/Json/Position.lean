/-
# Where a fault lies

A position in a text is a line, and a column in bytes.  The fault of a text that ends early lies at
its end.  Any other fault lies at the end of the shortest beginning of the text that has the same
fault: this is how far one has to read to know.
-/
import Punter.Json.Codec

namespace Punter

open Number

/-- A position in a text. -/
structure Position where
  line : Nat
  /-- The number of bytes on the line up to the position. -/
  column : Nat
  deriving DecidableEq, Repr

namespace Position

/-- The position at the end of a text. -/
def atEnd (cs : List Char) : Position where
  line := cs.count '\n' + 1
  column := (String.ofList (cs.reverse.takeWhile (· ≠ '\n'))).utf8ByteSize

/-- The wording of a fault at a position. -/
def explain (p : Position) (f : Fault) : String :=
  f.message ++ " at line " ++ numeral p.line ++ " column " ++ numeral p.column

end Position

namespace Fault

/-- Whether the fault is that a text is not JSON. -/
def isMalformation : Fault → Bool
  | .malformed _ => true
  | _ => false

/-- Whether the fault is that of a number as a whole. -/
def isOfNumber : Fault → Bool
  | .malformed .numberOutOfRange => true
  | .mismatch (.invalidType (.number _) _) => true
  | _ => false

/-- Whether the fault is that an array or an object begins. -/
def isOfOpening : Fault → Bool
  | .mismatch (.invalidType .sequence _) => true
  | .mismatch (.invalidType .map _) => true
  | _ => false

end Fault

namespace Codec

variable {α T : Type} [Scalar α]

/-- Whether a text has a fault. -/
def hasFault (c : Codec α T) (f : Fault) (cs : List Char) : Bool :=
  match c.ofText (String.ofList cs) with
  | .error g => g = f
  | .ok _ => false

/-- Drops characters from the end of a text as long as it has a fault without them.  The text is
given in reverse. -/
def shorten (c : Codec α T) (f : Fault) : List Char → List Char
  | [] => []
  | x :: xs => if c.hasFault f xs.reverse then shorten c f xs else x :: xs

/-- Characters of numbers. -/
def isNumberChar (x : Char) : Bool := isDigit x || ['.', 'e', 'E', '+', '-'].contains x

/-- The beginning of a text after which its fault is known.  A number belongs to it as a whole,
and the bracket that opens something unwanted does not.  Of a character that does not belong into
a text only the first byte counts, which a blank stands for. -/
def beginning (c : Codec α T) (f : Fault) (cs : List Char) : List Char :=
  let short := c.shorten f cs.reverse
  if f.isOfNumber then short.reverse ++ (cs.drop short.length).takeWhile isNumberChar
  else match short with
    | x :: rest =>
      if f.isOfOpening ∧ (x = '[' ∨ x = '\x7b') then rest.reverse
      else if f.isMalformation ∧ 1 < x.utf8Size then (' ' :: rest).reverse
      else short.reverse
    | [] => []

/-- The position of a fault of a text. -/
def positionOf (c : Codec α T) (s : String) : Fault → Position
  | .truncated _ => .atEnd s.toList
  | f => .atEnd (c.beginning f s.toList)

end Codec

end Punter
