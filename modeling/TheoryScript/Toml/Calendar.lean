/-
Dates of the calendar.

A date is written as a year, a month and a day, each within the range of its unit.  Not
every such date exists: months differ in length, and February has its last day in leap
years only.  Leap years are those that four divides, without the full centuries that
four hundred does not divide.
-/
namespace TheoryScript.Toml

/-- A year, a month and a day, as they are written. -/
structure Date where
  /-- The year. -/
  year : Nat
  /-- The month, from 1 to 12. -/
  month : Nat
  /-- The day, from 1 to 31. -/
  day : Nat
  deriving DecidableEq, Repr

/-- Whether February has twenty-nine days. -/
def isLeapYear (year : Nat) : Bool :=
  year % 4 == 0 && (year % 100 != 0 || year % 400 == 0)

/-- The number of days of a month. -/
def daysOfMonth (year month : Nat) : Nat :=
  if month = 2 then if isLeapYear year then 29 else 28
  else if month = 4 ∨ month = 6 ∨ month = 9 ∨ month = 11 then 30
  else 31

/-- Whether a date exists. -/
def Date.isOnCalendar (d : Date) : Bool :=
  d.day ≤ daysOfMonth d.year d.month

end TheoryScript.Toml
