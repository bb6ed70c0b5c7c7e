import HelpSheet.Environment
import HelpSheet.Log.Note
import HelpSheet.Text.Blank
import HelpSheet.Text.Character
import HelpSheet.Text.Numeral
import HelpSheet.Text.Quoted

/-!
# The level asked for

An environment variable gives the least level of the notes that are shown, as the name of a level in
any letter case or as a number in decimal digits. Anything else asks for nothing, except that a text
made of digits has to be a number, and not too long a one.
-/

set_option autoImplicit false
set_option relaxedAutoImplicit false

namespace HelpSheet.Log

/-- The variable that names the level. -/
def levelVariable : String := "MAKEHELP_LOG_LEVEL"

/-- The names of levels, and their levels. -/
def levelNames : List (String × Level) :=
  [("TRACE", .trace), ("DEBUG", .debug), ("INFO", .info), ("WARNING", .warning),
   ("WARN", .warning), ("ERROR", .error), ("CRITICAL", .critical), ("FATAL", .critical)]

/-- Why a text of digits is no level: one of them is not decimal, or there are too many. -/
inductive LevelFault
  | notDecimal (text : String)
  | tooLong (error : Text.Numeral.TooLong)
  deriving DecidableEq, Repr

/-- The greatest length of a quotation in a fault. -/
def maxQuotation : Nat := 200

def LevelFault.message : LevelFault → String
  | .notDecimal text =>
    "invalid literal for int() with base 10: " ++
      String.ofList ((Text.quote text.toList).take maxQuotation)
  | .tooLong error => error.message

/-- The level that digits spell. Their number counts up to the first that is not decimal. -/
def levelOfDigits (digits : List Char) : Except LevelFault Level :=
  let decimal := digits.takeWhile fun c ↦ (Text.decimalValue? c).isSome
  match Text.Numeral.tooLong? Text.Numeral.maxDigits decimal.length, Text.readDecimal 0 digits with
  | some error, _ => .error (.tooLong error)
  | none, some number => .ok number
  | none, none => .error (.notDecimal (String.ofList digits))

/-- The level that a text asks for. -/
def levelOfText? (raw : String) : Except LevelFault (Option Level) :=
  let name := Text.upper (Text.trim raw.toList)
  if name.isEmpty then .ok none
  else if name.all Text.isDigit then (levelOfDigits name).map some
  else .ok (levelNames.lookup (String.ofList name))

/-- The level that the environment asks for. -/
def levelOfEnvironment? (environment : Environment) : Except LevelFault (Option Level) :=
  levelOfText? ((environment.get? levelVariable).getD "")

/-- The level in force: the one given, else the one that the environment asks for unless it is zero,
else the level of critical notes. -/
def effectiveLevel (given : Option Level) (environment : Environment) :
    Except LevelFault Level :=
  match given with
  | some level => .ok level
  | none =>
    match levelOfEnvironment? environment with
    | .ok (some level) => .ok (if level = 0 then .critical else level)
    | .ok none => .ok .critical
    | .error fault => .error fault

end HelpSheet.Log
