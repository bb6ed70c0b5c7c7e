import HelpSheet.Time.Calendar

/-!
# Moments

A moment is a point of time, counted in microseconds from the beginning of the year one in universal
time. Its stamp shows the second it falls into.
-/

set_option autoImplicit false
set_option relaxedAutoImplicit false

namespace HelpSheet.Time

/-- A time of the day. -/
structure Clock where
  hour : Nat
  minute : Nat
  second : Nat
  microsecond : Nat := 0
  deriving DecidableEq, Repr

/-- Whether the time occurs in a day. -/
def Clock.exists (clock : Clock) : Bool :=
  clock.hour < 24 && clock.minute < 60 && clock.second < 60

/-- The microseconds from the beginning of the day. -/
def Clock.microseconds (clock : Clock) : Nat :=
  ((clock.hour * 60 + clock.minute) * 60 + clock.second) * 1000000 + clock.microsecond

/-- The microseconds of a day. -/
def dayLength : Nat := 86400 * 1000000

/-- A point of time. -/
structure Moment where
  microseconds : Int
  deriving DecidableEq, Repr

namespace Moment

/-- The moment at which a clock that is ahead of universal time by `offset` microseconds shows the
given date and time. -/
def ofLocal (date : Date) (clock : Clock) (offset : Int) : Moment where
  microseconds := dayLength * date.dayNumber + clock.microseconds - offset

/-- The moment from which computers count time. -/
def epoch : Moment :=
  ofLocal ⟨1970, 1, 1⟩ { hour := 0, minute := 0, second := 0 } 0

/-- The moment that comes the given number of seconds after the epoch. -/
def afterEpoch (seconds : Int) : Moment where
  microseconds := epoch.microseconds + seconds * 1000000

/-- A number with at least two digits. -/
def twoDigits (value : Nat) : String :=
  if value < 10 then "0" ++ toString value else toString value

/-- Why a moment has no stamp. -/
structure OutOfRange where
  moment : Moment
  deriving DecidableEq, Repr

def OutOfRange.message (_ : OutOfRange) : String :=
  "date value out of range"

/-- The date and the time of a moment in universal time, to the second. The year is written without
leading zeros. -/
def stamp (moment : Moment) : Except OutOfRange String :=
  let seconds := moment.microseconds.fdiv 1000000
  let day := seconds.fdiv 86400
  if 0 ≤ day && day < calendarLength then
    let date := Date.ofDayNumber day.toNat
    let inDay := (seconds - day * 86400).toNat
    .ok (toString date.year ++ "-" ++ twoDigits date.month ++ "-" ++ twoDigits date.day ++ "T" ++
      twoDigits (inDay / 3600) ++ ":" ++ twoDigits (inDay / 60 % 60) ++ ":" ++
      twoDigits (inDay % 60) ++ " UTC")
  else .error ⟨moment⟩

end Moment

end HelpSheet.Time
