import HelpSheet.Time.Moment

/-!
# Reading dates and times

A moment is spelled as a date, one character of any kind, a time of the day, and the distance of the
clock from universal time. Dates name a day of a month or of a week, with hyphens or without; the
parts of a time have two digits each, with colons or without, and all but the first may be missing.
-/

set_option autoImplicit false
set_option relaxedAutoImplicit false

namespace HelpSheet.Time

/-- The number that digits spell. -/
def numberOf (digits : List Char) : Nat :=
  digits.foldl (fun value digit ↦ 10 * value + (digit.toNat - 48)) 0

/-- Reads a number of exactly `count` digits. -/
def readDigits (count : Nat) (text : List Char) : Option (Nat × List Char) :=
  let digits := text.take count
  if digits.length = count && digits.all Char.isDigit then
    some (numberOf digits, text.drop count)
  else none

/-! ### Dates -/

/-- The number of characters of the date at the front of a text. A week may be followed by its day
or at once by the time; of digits after a week without hyphens, the first one is the day if an even
number of others follows it or it is the only one. -/
def dateLength (text : List Char) : Nat :=
  match text.drop 4 with
  | '-' :: 'W' :: rest =>
    match rest.drop 2 with
    | '-' :: _ :: c :: _ => if c.isDigit then 8 else 10
    | '-' :: _ => 10
    | _ => 8
  | '-' :: _ => 10
  | 'W' :: rest =>
    let count := ((rest.drop 2).takeWhile Char.isDigit).length
    if count = 0 then 7 else if count = 1 then 8 else if count % 2 = 1 then 7 else 8
  | _ => 8

/-- The text after a hyphen, if one is wanted. -/
def skipHyphen? (wanted : Bool) (text : List Char) : Option (List Char) :=
  if wanted then
    match text with
    | '-' :: rest => some rest
    | _ => none
  else some text

/-- The date in the given year that a text spells as a month and its day. -/
def dayOfMonth? (hyphens : Bool) (year : Nat) (text : List Char) : Option Date := do
  let (month, rest) ← readDigits 2 text
  let rest ← skipHyphen? hyphens rest
  let (day, rest) ← readDigits 2 rest
  let date : Date := { year, month, day }
  if date.exists && rest.isEmpty then some date else none

/-- The date in the given year that a text spells as a week and its day; without a day, it is the
Monday. -/
def dayOfWeek? (hyphens : Bool) (year : Nat) (text : List Char) : Option Date := do
  let (week, rest) ← readDigits 2 text
  if rest.isEmpty then Date.ofWeek? year week 1
  else
    let rest ← skipHyphen? hyphens rest
    let (day, rest) ← readDigits 1 rest
    if rest.isEmpty then Date.ofWeek? year week day else none

/-- The date that a text spells. -/
def Date.ofText? (text : List Char) : Option Date :=
  match readDigits 4 text with
  | some (year, '-' :: 'W' :: rest) => dayOfWeek? true year rest
  | some (year, 'W' :: rest) => dayOfWeek? false year rest
  | some (year, '-' :: rest) => dayOfMonth? true year rest
  | some (year, rest) => dayOfMonth? false year rest
  | none => none

/-! ### Times -/

/-- What is read of a time of the day: the hour, the minute and the second as far as they are there,
the microseconds, and the text after them. -/
structure ClockReading where
  parts : List Nat
  microsecond : Nat
  rest : List Char

/-- The time of the day that was read. -/
def ClockReading.clock (found : ClockReading) : Clock where
  hour := found.parts.getD 0 0
  minute := found.parts.getD 1 0
  second := found.parts.getD 2 0
  microsecond := found.microsecond

/-- Reads the digits of a fraction of a second. Those after the sixth are skipped; anything else
among the first six characters is a fault. -/
def readFraction (text : List Char) : Option ClockReading :=
  let digits := text.take 6
  if digits.all Char.isDigit then
    some ⟨[], numberOf (digits ++ List.replicate (6 - digits.length) '0'),
      (text.drop 6).dropWhile Char.isDigit⟩
  else none

/-- Reads at most `count` numbers of two digits and the fraction after them. A single character that
follows a number is left to the caller, and the third number ends before the fraction, whatever mark
comes between. -/
def readParts (colons : Bool) : Nat → List Char → Option ClockReading
  | 0, text => readFraction text
  | count + 1, text =>
    match readDigits 2 text with
    | none => none
    | some (value, rest) =>
      let reading : Option ClockReading :=
        match rest with
        | [] => some ⟨[], 0, rest⟩
        | [_] => some ⟨[], 0, rest⟩
        | mark :: after =>
          if mark = '.' || mark = ',' then readFraction after
          else if colons then if mark = ':' then readParts colons count after else none
          else readParts colons count rest
      reading.map fun found ↦ { found with parts := value :: found.parts }

/-- Reads a time of the day. Whether it has colons is seen after the hour. -/
def readClock (text : List Char) : Option ClockReading :=
  readParts ((text.drop 2).head? = some ':') 3 text

/-- Whether a distance from universal time begins with the character. -/
def beginsOffset (c : Char) : Bool :=
  c = '+' || c = '-' || c = 'Z'

/-- The distance from universal time in microseconds that a text spells, zero where there is none. A
distance of less than a second counts as none; it is shorter than a day. -/
def offset? (text : List Char) : Option Int :=
  match text with
  | [] => some 0
  | ['Z'] => some 0
  | 'Z' :: _ => none
  | sign :: rest =>
    match readClock rest with
    | none => none
    | some found =>
      let distance := found.clock.microseconds
      if !found.rest.isEmpty || dayLength ≤ distance then none
      else if distance < 1000000 then some 0
      else some (if sign = '-' then -distance else distance)

/-! ### Moments -/

/-- The time of the day and the distance from universal time that a text spells after one character,
which may be any; midnight, if the text is empty. Before a distance, characters that are left over
from the time do not count. -/
def clockAndOffset? (text : List Char) : Option (Clock × Int) :=
  match text with
  | [] => some ({ hour := 0, minute := 0, second := 0 }, 0)
  | _ :: rest =>
    let (front, zone) := rest.span fun c ↦ !beginsOffset c
    match readClock front, offset? zone with
    | some found, some offset =>
      if found.clock.exists && (found.rest.isEmpty || !zone.isEmpty) then some (found.clock, offset)
      else none
    | _, _ => none

/-- The moment that a text spells; without a distance, it is in universal time. -/
def Moment.ofText? (text : String) : Option Moment := do
  let chars := text.toList
  let date ← Date.ofText? (chars.take (dateLength chars))
  let (clock, offset) ← clockAndOffset? (chars.drop (dateLength chars))
  some (Moment.ofLocal date clock offset)

end HelpSheet.Time
