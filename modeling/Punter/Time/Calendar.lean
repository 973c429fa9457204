/-
# Dates of the Gregorian calendar

Days are counted from 1 January of the year 1, in both directions.
-/

namespace Punter

/-- A day of the calendar. -/
structure Date where
  year : Int
  month : Nat
  day : Nat
  deriving DecidableEq, Repr

namespace Date

/-- Years with a 29th of February. -/
def isLeap (year : Int) : Bool := year % 4 == 0 && (year % 100 != 0 || year % 400 == 0)

/-- The number of days of a month. -/
def monthLength (year : Int) (month : Nat) : Nat :=
  if month = 2 then if isLeap year then 29 else 28
  else if month = 4 ∨ month = 6 ∨ month = 9 ∨ month = 11 then 30
  else 31

/-- The days of a year before a month. -/
def daysBeforeMonth (year : Int) (month : Nat) : Nat :=
  (List.range (month - 1)).foldl (fun days i => days + monthLength year (i + 1)) 0

/-- The days before a year. -/
def daysBeforeYear (year : Int) : Int :=
  let y := year - 1
  365 * y + y / 4 - y / 100 + y / 400

/-- Whether there is such a day. -/
def isValid (d : Date) : Bool :=
  1 ≤ d.month && d.month ≤ 12 && 1 ≤ d.day && d.day ≤ monthLength d.year d.month

/-- The days before a day. -/
def toDays (d : Date) : Int :=
  daysBeforeYear d.year + daysBeforeMonth d.year d.month + (d.day - 1 : Nat)

/-- The year in which a day falls.  Four hundred years have 146097 days; the guess by this mean
length is at most one year off. -/
def yearOf (days : Int) : Int :=
  let guess := days * 400 / 146097 + 1
  if daysBeforeYear (guess + 1) ≤ days then guess + 1
  else if days < daysBeforeYear guess then guess - 1
  else guess

/-- The month in which a day of a year falls, counting from `month` on. -/
def monthOf (year : Int) : Nat → Nat → Nat → Date
  | 0, month, rest => ⟨year, month, rest + 1⟩
  | n + 1, month, rest =>
    if rest < monthLength year month then ⟨year, month, rest + 1⟩
    else monthOf year n (month + 1) (rest - monthLength year month)

/-- The day with the given number of days before it. -/
def ofDays (days : Int) : Date :=
  let year := yearOf days
  monthOf year 11 1 (days - daysBeforeYear year).toNat

end Date

end Punter
