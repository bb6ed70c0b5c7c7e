import HelpSheet.Toml.Moment
import HelpSheet.Toml.Value

/-!
# Words of TOML

A value without quotes and brackets is a word: a truth value, a number, a date, a time or both of
these. An underscore in a number stands between two digits; no number begins with a needless zero.
-/

set_option autoImplicit false
set_option relaxedAutoImplicit false

namespace HelpSheet.Toml

/-- Whether a word ends before the character. -/
def endsWord (c : Char) : Bool :=
  c = ' ' || endsClock c

/-! ### Numbers -/

/-- The base that the front of a number without sign tells. -/
def baseOf : List Char → Nat
  | '0' :: 'b' :: _ => 2
  | '0' :: 'o' :: _ => 8
  | '0' :: 'x' :: _ => 16
  | _ => 10

/-- Whether a character is a digit of the base in ASCII. -/
def isDigitOf (base : Nat) (c : Char) : Bool :=
  c.toNat < 0x80 && (Text.Numeral.digitValue? base c).isSome

/-- Whether a number without sign begins with a zero that may not stand there. -/
def hasNeedlessZero : List Char → Bool
  | '0' :: c :: _ => !(c = '.' || c = 'o' || c = 'x' || c = 'b' || c = 'e')
  | _ => false

/-- The text without the underscores between two digits; `before` is the character before it. -/
def withoutSeparators (base : Nat) (before : Char) : List Char → List Char
  | '_' :: c :: rest =>
    if isDigitOf base before && isDigitOf base c then c :: withoutSeparators base c rest
    else '_' :: withoutSeparators base '_' (c :: rest)
  | c :: rest => c :: withoutSeparators base c rest
  | [] => []

/-- Whether a number ends in a point, or its part before the exponent does. -/
def hasBarePoint (base : Nat) (text : List Char) : Bool :=
  let mantissa := text.takeWhile fun c ↦ !(c = 'e' || c = 'E')
  text.getLast? = some '.' || (base ≠ 16 && mantissa.getLast? = some '.')

/-- Whether the text is a number, where its sign is known. -/
def isUnsignedNumber (sign : List Char) (text : List Char) : Bool :=
  let base := baseOf text
  let clean := withoutSeparators base ' ' text
  !hasNeedlessZero text && (sign.isEmpty || (base = 10 && text.head? ≠ some '.')) &&
    !clean.contains '_' && !hasBarePoint base clean &&
    ((Text.Numeral.readWhole base (sign ++ clean)).isSome || Text.Numeral.isReal (sign ++ clean))

/-- Whether the text is a number. -/
def isNumber : List Char → Bool
  | '+' :: rest => isUnsignedNumber ['+'] rest
  | '-' :: rest => isUnsignedNumber ['-'] rest
  | text => isUnsignedNumber [] text

/-! ### Words -/

/-- The truth value that stands at the front of a text. -/
def readTruth : List Char → Reading Bool
  | 't' :: 'r' :: 'u' :: 'e' :: rest => some (true, rest)
  | 'f' :: 'a' :: 'l' :: 's' :: 'e' :: rest => some (false, rest)
  | _ => none

/-- Whether a word may be a number, a date or a time, as far as its front tells. -/
def beginsNumber : List Char → Bool
  | ['i', 'n', 'f'] => true
  | ['n', 'a', 'n'] => true
  | c :: _ => c.isDigit || c = '+' || c = '-'
  | [] => false

/-- Reads a word. -/
def readWord (text : List Char) : Reading Value :=
  match readTruth text with
  | some (value, rest) => some (.boolean value, rest)
  | none =>
    let (word, rest) := text.span fun c ↦ !endsWord c
    if isDate word then
      (readAfterDate rest).map fun found ↦
        (.moment (String.ofList (word ++ found.1)), found.2)
    else if isClock word || isDateAndClock word then some (.moment (String.ofList word), rest)
    else if beginsNumber word && isNumber word then some (.number (String.ofList word), rest)
    else none

end HelpSheet.Toml
