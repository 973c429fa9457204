/-
# Texts quoted in messages

Messages that cite a text put it in quotes.  The quote, the backslash and the usual control
characters are written with a backslash; other characters that show nothing are written by
their number in braces.
-/
import Punter.Number.Digits

namespace Punter.Text

open Number

/-- Lower-case hexadecimal digits of a number. -/
def hexDigits (n : Nat) : List Char := Nat.toDigits 16 n

/-- Control characters, blanks other than the space, and format characters in common use. -/
def isUnprintable (c : Char) : Bool :=
  let n := c.toNat
  n < 0x20 || (0x7f ≤ n && n ≤ 0xa0) || n == 0xad || (0x300 ≤ n && n ≤ 0x36f) || n == 0x61c ||
    n == 0x1680 || (0x2000 ≤ n && n ≤ 0x200f) || (0x2028 ≤ n && n ≤ 0x202f) ||
    (0x205f ≤ n && n ≤ 0x206f) || n == 0x3000 || (0xe000 ≤ n && n ≤ 0xf8ff) ||
    (0xfe00 ≤ n && n ≤ 0xfe0f) || n == 0xfeff || (0xfff0 ≤ n && n ≤ 0xfffb) || 0xe0000 ≤ n

/-- A character of a quoted text. -/
def quotedChar (c : Char) : List Char :=
  if c = '"' then ['\\', '"']
  else if c = '\\' then ['\\', '\\']
  else if c = '\n' then ['\\', 'n']
  else if c = '\r' then ['\\', 'r']
  else if c = '\t' then ['\\', 't']
  else if c.toNat = 0 then ['\\', '0']
  else if isUnprintable c then '\\' :: 'u' :: '\x7b' :: (hexDigits c.toNat ++ ['\x7d'])
  else [c]

/-- A text in quotes. -/
def quoted (s : String) : String := String.ofList ('"' :: (s.toList.flatMap quotedChar ++ ['"']))

end Punter.Text
