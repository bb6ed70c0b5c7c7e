import HelpSheet.Text.Blank
import HelpSheet.Time.Reader
import HelpSheet.Toml.Text

/-!
# Dates and times of TOML

A date has hyphens and a time has colons; seconds may be missing. Only a time that comes with a date
may tell its distance from universal time. Between the two stands a letter or one blank.
-/

set_option autoImplicit false
set_option relaxedAutoImplicit false

namespace HelpSheet.Toml

/-- Reads a mark and then a number of two digits. -/
def readMarked (mark : Char) (text : List Char) : Reading Nat :=
  match text with
  | c :: rest => if c = mark then Time.readDigits 2 rest else none
  | [] => none

/-- Reads a date. -/
def readDate (text : List Char) : Option (Time.Date × List Char) := do
  let (year, rest) ← Time.readDigits 4 text
  let (month, rest) ← readMarked '-' rest
  let (day, rest) ← readMarked '-' rest
  let date : Time.Date := { year, month, day }
  if date.exists then some (date, rest) else none

/-- The text after a point and the digits behind it, if it begins with a point. -/
def skipFraction? : List Char → Option (List Char)
  | '.' :: c :: rest => if c.isDigit then some (rest.dropWhile Char.isDigit) else none
  | '.' :: [] => none
  | text => some text

/-- Reads a time of the day to the second. -/
def readClock (text : List Char) : Option (Time.Clock × List Char) := do
  let (hour, rest) ← Time.readDigits 2 text
  let (minute, rest) ← readMarked ':' rest
  let (second, rest) ←
    match rest with
    | ':' :: _ => do
      let (second, rest) ← readMarked ':' rest
      let rest ← skipFraction? rest
      some (second, rest)
    | _ => some (0, rest)
  let clock : Time.Clock := { hour, minute, second }
  if clock.exists then some (clock, rest) else none

/-- Whether the text is a distance from universal time, or empty. -/
def isZone : List Char → Bool
  | [] => true
  | ['Z'] => true
  | ['z'] => true
  | sign :: rest =>
    (sign = '+' || sign = '-') &&
      match readClock rest with
      | some (_, after) => after.isEmpty && rest.length = 5
      | none => false

/-- Whether the text is a time of the day, perhaps with a distance from universal time. -/
def isZonedClock (text : List Char) : Bool :=
  match readClock text with
  | some (_, rest) => isZone rest
  | none => false

/-- Whether the text is a date. -/
def isDate (text : List Char) : Bool :=
  match readDate text with
  | some (_, []) => true
  | _ => false

/-- Whether the text is a time of the day. -/
def isClock (text : List Char) : Bool :=
  match readClock text with
  | some (_, []) => true
  | _ => false

/-- Whether the text is a date and a time with a letter between them. -/
def isDateAndClock (text : List Char) : Bool :=
  match readDate text with
  | some (_, 'T' :: rest) => isZonedClock rest
  | some (_, 't' :: rest) => isZonedClock rest
  | _ => false

/-- Whether a time that follows a date after a blank ends before the character. Unlike a word, it
does not end before a blank. -/
def endsClock (c : Char) : Bool :=
  c = '\t' || c = '\n' || c = '#' || c = ',' || c = ']' || c = '\x7d'

/-- Reads what follows a date up to the end of its value: nothing but blanks, or one blank and a
time. -/
def readAfterDate (text : List Char) : Reading (List Char) :=
  let (follows, rest) := text.span fun c ↦ !endsClock c
  match Text.trimEnd follows with
  | [] => some ([], rest)
  | ' ' :: clock => if isZonedClock clock then some (' ' :: clock, rest) else none
  | _ => none

end HelpSheet.Toml
