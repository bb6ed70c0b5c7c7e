/-!
# The calendar

Dates of the Gregorian calendar, carried back to the year one, and the number of each day counted
from the first of January of that year.
-/

set_option autoImplicit false
set_option relaxedAutoImplicit false

namespace HelpSheet.Time

/-- A date. Months and days are counted from one. -/
structure Date where
  year : Nat
  month : Nat
  day : Nat
  deriving DecidableEq, Repr

/-- Whether a year has a twenty-ninth of February. -/
def isLeapYear (year : Nat) : Bool :=
  year % 4 = 0 && (year % 100 ≠ 0 || year % 400 = 0)

/-- The lengths of the months of a year. -/
def monthLengths (year : Nat) : List Nat :=
  [31, if isLeapYear year then 29 else 28, 31, 30, 31, 30, 31, 31, 30, 31, 30, 31]

/-- Whether there is such a day. The calendar has the years from 1 to 9999. -/
def Date.exists (date : Date) : Bool :=
  1 ≤ date.year && date.year ≤ 9999 && 1 ≤ date.month && 1 ≤ date.day &&
    date.day ≤ (monthLengths date.year).getD (date.month - 1) 0

/-- The number of days before a year. -/
def daysBeforeYear (year : Nat) : Nat :=
  let before := year - 1
  365 * before + before / 4 - before / 100 + before / 400

/-- The number of days between the first day of the year one and the date. -/
def Date.dayNumber (date : Date) : Nat :=
  let earlierMonths := (monthLengths date.year).take (date.month - 1)
  daysBeforeYear date.year + earlierMonths.foldl Nat.add 0 + (date.day - 1)

/-- The number of days of the whole calendar. -/
def calendarLength : Nat :=
  daysBeforeYear 10000

/-- The month and the day of the day that comes `days` days after the first of the month `month`;
the lengths of the months from this one on are given. -/
def monthAndDay (month days : Nat) : List Nat → Nat × Nat
  | [] => (month, days + 1)
  | length :: rest =>
    if days < length then (month, days + 1) else monthAndDay (month + 1) (days - length) rest

/-- The date of the day with the given number. -/
def Date.ofDayNumber (number : Nat) : Date :=
  let inFourCenturies := number % 146097
  let centuries := min (inFourCenturies / 36524) 3
  let inCentury := inFourCenturies - 36524 * centuries
  let inFourYears := inCentury % 1461
  let years := min (inFourYears / 365) 3
  let year := 400 * (number / 146097) + 100 * centuries + 4 * (inCentury / 1461) + years + 1
  let (month, day) := monthAndDay 1 (inFourYears - 365 * years) (monthLengths year)
  { year, month, day }

/-- The number of the day with which the first week of a year begins. Weeks begin on Mondays, and
the fourth of January lies in the first one; the day with number zero is a Monday. -/
def firstMonday (year : Nat) : Int :=
  let fourth := daysBeforeYear year + 3
  (fourth : Int) - (fourth % 7 : Nat)

/-- The number of weeks of a year. -/
def weekCount (year : Nat) : Nat :=
  ((firstMonday (year + 1) - firstMonday year) / 7).toNat

/-- The date of a day of a week; weeks and their days are counted from one. -/
def Date.ofWeek? (year week day : Nat) : Option Date :=
  let number := firstMonday year + (7 * week + day : Nat) - 8
  if 1 ≤ year && 1 ≤ week && week ≤ weekCount year && 1 ≤ day && day ≤ 7 && 0 ≤ number &&
      number < calendarLength then
    some (Date.ofDayNumber number.toNat)
  else none

end HelpSheet.Time
