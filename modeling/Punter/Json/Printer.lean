/-
# JSON texts

Two layouts of a JSON value: `Json.compact`, without any blanks, and `Json.pretty`, with one
line per member or item and two blanks of indentation per level.  Strings escape the quote,
the backslash and the control characters below U+0020, and nothing else.
-/
import Punter.Json.Value
import Punter.Text.Hex

namespace Punter.Json

open Number

variable {α : Type}

/-- A character inside of a string. -/
def escape (c : Char) : List Char :=
  if c = '"' then ['\\', '"']
  else if c = '\\' then ['\\', '\\']
  else if c = '\n' then ['\\', 'n']
  else if c = '\r' then ['\\', 'r']
  else if c = '\t' then ['\\', 't']
  else if c.toNat = 8 then ['\\', 'b']
  else if c.toNat = 12 then ['\\', 'f']
  else if c.toNat < 32 then '\\' :: 'u' :: Text.toHex 4 c.toNat
  else [c]

/-- A string in quotes. -/
def quote (s : String) : List Char := '"' :: (s.toList.flatMap escape ++ ['"'])

mutual

/-- The text of a value without blanks. -/
def compactChars [Scalar α] : Json α → List Char
  | null => "null".toList
  | bool true => "true".toList
  | bool false => "false".toList
  | int n => (intNumeral n).toList
  | num x => (Scalar.jsonText x).toList
  | str s => quote s
  | arr [] => ['[', ']']
  | arr (x :: xs) => '[' :: (compactChars x ++ compactItems xs)
  | obj [] => ['\x7b', '\x7d']
  | obj ((k, v) :: ms) => '\x7b' :: (quote k ++ ':' :: (compactChars v ++ compactMembers ms))

/-- The items after the first one, and the closing bracket. -/
def compactItems [Scalar α] : List (Json α) → List Char
  | [] => [']']
  | x :: xs => ',' :: (compactChars x ++ compactItems xs)

/-- The members after the first one, and the closing brace. -/
def compactMembers [Scalar α] : List (String × Json α) → List Char
  | [] => ['\x7d']
  | (k, v) :: ms => ',' :: (quote k ++ ':' :: (compactChars v ++ compactMembers ms))

end

/-- The text of a value without blanks. -/
def compact [Scalar α] (v : Json α) : String := String.ofList (compactChars v)

/-- A new line with the indentation of a level. -/
def newline (level : Nat) : List Char := '\n' :: List.replicate (2 * level) ' '

mutual

/-- The text of a value whose first line has the indentation of `level`. -/
def prettyChars [Scalar α] (level : Nat) : Json α → List Char
  | null => "null".toList
  | bool true => "true".toList
  | bool false => "false".toList
  | int n => (intNumeral n).toList
  | num x => (Scalar.jsonText x).toList
  | str s => quote s
  | arr [] => ['[', ']']
  | arr (x :: xs) =>
    '[' :: (newline (level + 1) ++ (prettyChars (level + 1) x ++ prettyItems level xs))
  | obj [] => ['\x7b', '\x7d']
  | obj ((k, v) :: ms) =>
    '\x7b' :: (newline (level + 1) ++ (quote k ++ ':' :: ' ' ::
      (prettyChars (level + 1) v ++ prettyMembers level ms)))

/-- The items after the first one, and the closing bracket at the indentation of `level`. -/
def prettyItems [Scalar α] (level : Nat) : List (Json α) → List Char
  | [] => newline level ++ [']']
  | x :: xs => ',' :: (newline (level + 1) ++ (prettyChars (level + 1) x ++ prettyItems level xs))

/-- The members after the first one, and the closing brace at the indentation of `level`. -/
def prettyMembers [Scalar α] (level : Nat) : List (String × Json α) → List Char
  | [] => newline level ++ ['\x7d']
  | (k, v) :: ms =>
    ',' :: (newline (level + 1) ++ (quote k ++ ':' :: ' ' ::
      (prettyChars (level + 1) v ++ prettyMembers level ms)))

end

/-- The text of a value with one line per item and member. -/
def pretty [Scalar α] (v : Json α) : String := String.ofList (prettyChars 0 v)

end Punter.Json
