/-!
# The Gregorian calendar

Days are counted from 0001-01-01, which is day zero, in the proleptic Gregorian calendar.
`dayNumber` counts the days before a date, `dateOfDay` names the date of a day.
-/

namespace ExprLang
namespace Time

/-- A date of the Gregorian calendar; months and days count from one. -/
structure Date where
  year : Nat
  month : Nat
  day : Nat
deriving DecidableEq, Repr

/-- Every fourth year is a leap year, except three of four centuries. -/
def isLeap (year : Nat) : Bool :=
  year % 4 = 0 && (year % 100 != 0 || year % 400 = 0)

/-- The lengths of the twelve months. -/
def monthLengths (leap : Bool) : List Nat :=
  [31, if leap then 29 else 28, 31, 30, 31, 30, 31, 31, 30, 31, 30, 31]

/-- The number of days of a month; zero for a month that does not exist. -/
def daysInMonth (year month : Nat) : Nat :=
  if month = 0 then 0 else (monthLengths (isLeap year)).getD (month - 1) 0

/-- The days before the first of January of a year. -/
def daysBeforeYear (year : Nat) : Nat :=
  (year - 1) * 365 + (year - 1) / 4 - (year - 1) / 100 + (year - 1) / 400

/-- The days of a year before the first of a month. -/
def daysBeforeMonth (leap : Bool) (month : Nat) : Nat :=
  ((monthLengths leap).take (month - 1)).foldl (· + ·) 0

/-- The days before a date, counted from 0001-01-01. -/
def dayNumber (date : Date) : Nat :=
  daysBeforeYear date.year + daysBeforeMonth (isLeap date.year) date.month + (date.day - 1)

/-- Finds the month that a day of the year falls in, from the lengths of the months that are left:
the number of the month and the day within it, both from zero. -/
def splitMonth : List Nat → Nat → Nat × Nat
  | [], day => (0, day)
  | length :: rest, day =>
      if day < length then (0, day)
      else
        let (month, left) := splitMonth rest (day - length)
        (month + 1, left)

/-- The year that a day falls in, and the day of that year from zero.  A cycle of 400 years has
146097 days; within it a century has 36524, four years 1461 and one year 365, and the last year of
a cycle may be a day longer. -/
def yearOfDay (day : Nat) : Nat × Nat :=
  let cycle := day / 146097
  let inCycle := day % 146097
  let century := min 3 (inCycle / 36524)
  let inCentury := inCycle - century * 36524
  let four := inCentury / 1461
  let inFour := inCentury % 1461
  let single := min 3 (inFour / 365)
  (cycle * 400 + century * 100 + four * 4 + single + 1, inFour - single * 365)

/-- The date of a day. -/
def dateOfDay (day : Nat) : Date :=
  let (year, inYear) := yearOfDay day
  let (month, inMonth) := splitMonth (monthLengths (isLeap year)) inYear
  ⟨year, month + 1, inMonth + 1⟩

/-- The day of the week, Sunday being zero: day zero was a Monday. -/
def weekday (day : Nat) : Nat :=
  (day + 1) % 7

/-- Whether a date exists within the years 1 to 9999. -/
def Date.exists (date : Date) : Bool :=
  1 ≤ date.year && date.year ≤ 9999 && 1 ≤ date.month && date.month ≤ 12 &&
    1 ≤ date.day && date.day ≤ daysInMonth date.year date.month

end Time
end ExprLang
