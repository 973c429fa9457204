/-
# Timestamps

A timestamp is a moment of universal time with a resolution of a nanosecond.  It is read from
the internet date and time format with any offset from universal time, also with blanks between
the parts, and is written in universal time with as few groups of three places as needed.

A leap second is the second after `23:59:59` that an ordinary minute does not have; it is kept as
a part of the second before it.
-/
import Punter.Number.Digits
import Punter.Text.Blank
import Punter.Time.Calendar
import Punter.Time.Duration

namespace Punter

/-- A moment: the seconds since the beginning of the year 1, and the nanoseconds since then,
which pass `10 ^ 9` in a leap second. -/
structure Timestamp where
  seconds : Int
  nanos : Nat
  deriving DecidableEq, Repr

namespace Timestamp

open Number Text
open Duration (nanosPerSecond)

/-- The number of seconds of a day. -/
def daySeconds : Int := 86400

/-- The seconds from the beginning of the year 1 to that of 1970. -/
def epochSeconds : Int := 719162 * daySeconds

/-- The moment that is a number of nanoseconds after the beginning of 1970. -/
def ofNanos (n : Nat) : Timestamp :=
  ⟨epochSeconds + (n / nanosPerSecond : Nat), n % nanosPerSecond⟩

/-! ## Writing -/

/-- A year: four digits, or a sign and at least four digits. -/
def yearText (year : Int) : String :=
  if 0 ≤ year ∧ year ≤ 9999 then paddedNumeral 4 year.toNat
  else (if year < 0 then "-" else "+") ++ paddedNumeral 4 year.natAbs

/-- The places of a second, in groups of three. -/
def fractionText (nanos : Nat) : String :=
  if nanos = 0 then ""
  else if nanos % 1000000 = 0 then "." ++ paddedNumeral 3 (nanos / 1000000)
  else if nanos % 1000 = 0 then "." ++ paddedNumeral 6 (nanos / 1000)
  else "." ++ paddedNumeral 9 nanos

/-- The text of a timestamp. -/
def text (t : Timestamp) : String :=
  let date := Date.ofDays (t.seconds / daySeconds)
  let rest := (t.seconds % daySeconds).toNat
  let second := rest % 60 + t.nanos / nanosPerSecond
  yearText date.year ++ "-" ++ paddedNumeral 2 date.month ++ "-" ++ paddedNumeral 2 date.day ++
    "T" ++ paddedNumeral 2 (rest / 3600) ++ ":" ++ paddedNumeral 2 (rest / 60 % 60) ++ ":" ++
    paddedNumeral 2 second ++ fractionText (t.nanos % nanosPerSecond) ++ "Z"

/-! ## Reading -/

/-- One to `width` digits, and the rest of the text. -/
def readDigits (width : Nat) (cs : List Char) : Option (Nat × List Char) :=
  let ds := (cs.take width).takeWhile isDigit
  if ds.isEmpty then none else some (ofDigits ds, cs.drop ds.length)

/-- A number of one to `width` digits after blanks. -/
def readNumber (width : Nat) (cs : List Char) : Option (Nat × List Char) :=
  readDigits width (trimStart cs)

/-- A year: up to four digits, or a sign and any number of digits. -/
def readYear (cs : List Char) : Option (Int × List Char) :=
  match trimStart cs with
  | '-' :: rest => (readDigits rest.length rest).map fun (n, rest) => (-n, rest)
  | '+' :: rest => (readDigits rest.length rest).map fun (n, rest) => (n, rest)
  | cs => (readDigits 4 cs).map fun (n, rest) => (n, rest)

/-- A certain character after blanks. -/
def readMark (c : Char) (cs : List Char) : Option (List Char) :=
  match trimStart cs with
  | x :: rest => if x = c then some rest else none
  | [] => none

/-- The places of a second, as nanoseconds.  Places after the ninth are ignored. -/
def readFraction (cs : List Char) : Option (Nat × List Char) :=
  match cs with
  | '.' :: rest =>
    let ds := rest.takeWhile isDigit
    let kept := ds.take 9
    if ds.isEmpty then none
    else some (ofDigits kept * 10 ^ (9 - kept.length), rest.dropWhile isDigit)
  | cs => some (0, cs)

/-- Two digits. -/
def readPair (cs : List Char) : Option (Nat × List Char) :=
  match cs with
  | a :: b :: rest => if isDigit a && isDigit b then some (ofDigits [a, b], rest) else none
  | _ => none

/-- An offset from universal time in seconds. -/
def readOffset (cs : List Char) : Option (Int × List Char) :=
  let signed (negative : Bool) (cs : List Char) : Option (Int × List Char) := do
    let (hours, cs) ← readPair cs
    let (minutes, cs) ← readPair (cs.dropWhile fun c => c = ':' || isBlank c)
    if 24 ≤ hours ∨ 60 ≤ minutes then none
    let n : Int := (3600 * hours + 60 * minutes : Nat)
    return (if negative then -n else n, cs)
  match cs with
  | 'Z' :: rest => some (0, rest)
  | 'z' :: rest => some (0, rest)
  | '+' :: rest => signed false rest
  | '-' :: rest => signed true rest
  | '\u2212' :: rest => signed true rest
  | a :: b :: c :: rest =>
    if [a, b, c].map Char.toUpper = ['U', 'T', 'C'] then some (0, rest) else none
  | _ => none

/-- The years that timestamps can have. -/
def inRange (year : Int) : Bool := -262143 ≤ year && year ≤ 262142

/-- A date: its year, month and day. -/
def readDate (cs : List Char) : Option (Date × List Char) := do
  let (year, cs) ← readYear cs
  let cs ← readMark '-' cs
  let (month, cs) ← readNumber 2 cs
  let cs ← readMark '-' cs
  let (day, cs) ← readNumber 2 cs
  return (⟨year, month, day⟩, cs)

/-- What stands between a date and a time of day. -/
def readBreak (cs : List Char) : Option (List Char) :=
  match cs with
  | c :: rest => if c = 'T' ∨ c = 't' ∨ c = ' ' then some rest else none
  | [] => none

/-- A time of day, which may be a leap second. -/
structure Clock where
  hour : Nat
  minute : Nat
  second : Nat
  nanos : Nat

/-- Whether there is such a time of day. -/
def Clock.isValid (c : Clock) : Bool := c.hour < 24 && c.minute < 60 && c.second < 61

/-- A time of day: its hour, minute and second, and the places of the second. -/
def readClock (cs : List Char) : Option (Clock × List Char) := do
  let (hour, cs) ← readNumber 2 cs
  let cs ← readMark ':' cs
  let (minute, cs) ← readNumber 2 cs
  let cs ← readMark ':' cs
  let (second, cs) ← readNumber 2 cs
  let (nanos, cs) ← readFraction cs
  return (⟨hour, minute, second, nanos⟩, cs)

/-- The moment of a date and a time of day with an offset from universal time. -/
def ofParts (date : Date) (clock : Clock) (offset : Int) : Timestamp where
  seconds := date.toDays * daySeconds +
    (3600 * clock.hour + 60 * clock.minute + min clock.second 59 : Nat) - offset
  nanos := if clock.second = 60 then clock.nanos + nanosPerSecond else clock.nanos

/-- The year of a timestamp. -/
def year (t : Timestamp) : Int := (Date.ofDays (t.seconds / daySeconds)).year

/-- Reads a timestamp. -/
def parse? (s : String) : Option Timestamp := do
  let (date, cs) ← readDate s.toList
  let cs ← readBreak cs
  let (clock, cs) ← readClock cs
  let (offset, cs) ← readOffset (trimStart cs)
  let t := ofParts date clock offset
  if (trimStart cs).isEmpty && inRange date.year && date.isValid && clock.isValid &&
      inRange t.year then
    return t
  else none

/-- Timestamps in JSON are strings. -/
def codec {α : Type} [Scalar α] : Codec α Timestamp :=
  .special "an RFC 3339 formatted date and time string" parse?
    (fun _ => "the text is not a date and time") text

end Timestamp

end Punter
