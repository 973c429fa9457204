/-
# What can be wrong with a JSON text

A text is refused because it ends early, because it is not JSON, or because it is JSON of the
wrong shape.  The cause is kept as a value of `Part`, `Malformation` or `Mismatch`; `Fault.message`
words it.
-/
import Punter.Text.Quoted

namespace Punter

open Number

/-- What stands where something else was expected. -/
inductive Found where
  | null
  | bool (b : Bool)
  | integer (n : Int)
  /-- A number that is no integer, by its text. -/
  | number (text : String)
  | str (s : String)
  | sequence
  | map
  deriving DecidableEq, Repr

/-- The ways in which a JSON value fails to have a wanted shape. -/
inductive Mismatch where
  | missingField (name : String)
  | duplicateField (name : String)
  | unknownVariant (name : String) (expected : List String)
  | invalidType (found : Found) (expected : String)
  | invalidValue (found : Found) (expected : String)
  | invalidLength (length : Nat) (expected : String)
  /-- A string is not of the special form that it should have. -/
  | badText (reason : String)
  deriving DecidableEq, Repr

/-- What is not finished where a text ends early. -/
inductive Part where
  | value
  | string
  | list
  | object
  deriving DecidableEq, Repr

/-- The ways in which a text fails to be JSON. -/
inductive Malformation where
  /-- No value begins here. -/
  | noValue
  /-- A letter is wrong in one of the words. -/
  | wrongWord
  | badNumber
  | numberOutOfRange
  | badEscape
  /-- An escape for half of a character has no other half of the right kind. -/
  | unpairedHalf
  /-- An escape for half of a character is followed by no escape. -/
  | endOfHalf
  | controlCharacter
  | keyNotString
  | noColon
  /-- An item of a list is followed by something else than a comma or the end. -/
  | afterItem
  /-- A member of an object is followed by something else than a comma or the end. -/
  | afterMember
  | trailingComma
  | trailingCharacters
  | tooDeep
  deriving DecidableEq, Repr

/-- Why a JSON text is refused. -/
inductive Fault where
  /-- The text ends early. -/
  | truncated (part : Part)
  /-- The text is not JSON. -/
  | malformed (m : Malformation)
  /-- The text is JSON of the wrong shape. -/
  | mismatch (m : Mismatch)
  deriving DecidableEq, Repr

namespace Found

/-- How messages name what was found. -/
def describe : Found → String
  | null => "null"
  | bool true => "boolean `true`"
  | bool false => "boolean `false`"
  | integer n => "integer `" ++ intNumeral n ++ "`"
  | number text => "floating point `" ++ text ++ "`"
  | str s => "string " ++ Text.quoted s
  | sequence => "sequence"
  | map => "map"

end Found

namespace Mismatch

/-- A name as messages cite it. -/
def cite (name : String) : String := "`" ++ name ++ "`"

/-- The alternatives that a message offers. -/
def alternatives : List String → String
  | [] => "there are no variants"
  | [a] => "expected " ++ cite a
  | [a, b] => "expected " ++ cite a ++ " or " ++ cite b
  | names => "expected one of " ++ ", ".intercalate (names.map cite)

/-- The wording of a mismatch. -/
def message : Mismatch → String
  | missingField name => "missing field " ++ cite name
  | duplicateField name => "duplicate field " ++ cite name
  | unknownVariant name expected => "unknown variant " ++ cite name ++ ", " ++ alternatives expected
  | invalidType found expected => "invalid type: " ++ found.describe ++ ", expected " ++ expected
  | invalidValue found expected => "invalid value: " ++ found.describe ++ ", expected " ++ expected
  | invalidLength n expected => "invalid length " ++ numeral n ++ ", expected " ++ expected
  | badText reason => reason

end Mismatch

/-- The wording of an early end. -/
def Part.message : Part → String
  | value => "EOF while parsing a value"
  | string => "EOF while parsing a string"
  | list => "EOF while parsing a list"
  | object => "EOF while parsing an object"

/-- The wording of a malformation. -/
def Malformation.message : Malformation → String
  | noValue => "expected value"
  | wrongWord => "expected ident"
  | badNumber => "invalid number"
  | numberOutOfRange => "number out of range"
  | badEscape => "invalid escape"
  | unpairedHalf => "lone leading surrogate in hex escape"
  | endOfHalf => "unexpected end of hex escape"
  | controlCharacter => "control character (\\u0000-\\u001F) found while parsing a string"
  | keyNotString => "key must be a string"
  | noColon => "expected \x60:\x60"
  | afterItem => "expected \x60,\x60 or \x60]\x60"
  | afterMember => "expected \x60,\x60 or \x60\x7d\x60"
  | trailingComma => "trailing comma"
  | trailingCharacters => "trailing characters"
  | tooDeep => "recursion limit exceeded"

/-- The wording of a fault. -/
def Fault.message : Fault → String
  | truncated part => part.message
  | malformed m => m.message
  | mismatch m => m.message

end Punter
