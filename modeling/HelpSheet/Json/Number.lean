import HelpSheet.Decimal.Double
import HelpSheet.Text.Numeral

/-!
# Numbers of JSON

The parts of a number: its integer part, and perhaps a fraction and an exponent. Each of them is the
longest one at the front of a text. The text of a number with a fraction or an exponent stands for a
binary number.
-/

set_option autoImplicit false
set_option relaxedAutoImplicit false

namespace HelpSheet.Json

/-! ### Parts -/

/-- The digits at the front of a text, and what follows them. -/
def spanDigits (text : List Char) : List Char × List Char :=
  text.span Char.isDigit

/-- The number that decimal digits spell. -/
def natOfDigits (digits : List Char) : Nat :=
  digits.foldl (fun value digit ↦ 10 * value + (digit.toNat - 48)) 0

/-- The digits of the integer part: a zero alone, or digits that begin with no zero. -/
def integerPart? (text : List Char) : Option (List Char × List Char) :=
  match text with
  | '0' :: rest => some (['0'], rest)
  | _ =>
    match spanDigits text with
    | ([], _) => none
    | found => some found

/-- The fraction at the front of a text: a point and at least one digit. -/
def fractionPart (text : List Char) : List Char × List Char :=
  match text with
  | '.' :: rest =>
    match spanDigits rest with
    | ([], _) => ([], text)
    | (digits, after) => ('.' :: digits, after)
  | _ => ([], text)

/-- The exponent at the front of a text: its letter, an optional sign and at least one digit. -/
def exponentPart (text : List Char) : List Char × List Char :=
  match text with
  | e :: rest =>
    if e = 'e' || e = 'E' then
      let (sign, digits) :=
        match rest with
        | '+' :: after => (['+'], after)
        | '-' :: after => (['-'], after)
        | _ => ([], rest)
      match spanDigits digits with
      | ([], _) => ([], text)
      | (digits, after) => (e :: sign ++ digits, after)
    else ([], text)
  | [] => ([], text)

/-! ### Values -/

/-- The value of an exponent with its letter and perhaps a sign; zero where there is none. -/
def exponentValue (text : List Char) : Int :=
  let (negative, digits) := Text.Numeral.splitSign (text.drop 1)
  let magnitude : Int := natOfDigits digits
  if negative then -magnitude else magnitude

/-- The binary number that a text spells. -/
def doubleOf? (text : String) : Option Decimal.Double :=
  if text = "NaN" then some .undefined
  else
    let (negative, unsigned) := Text.Numeral.splitSign text.toList
    if unsigned = "Infinity".toList then some (.infinite negative)
    else
      (integerPart? unsigned).map fun (whole, rest) ↦
        let (fraction, rest) := fractionPart rest
        let (exponent, _) := exponentPart rest
        let places := fraction.drop 1
        .nearest negative (natOfDigits (whole ++ places)) (exponentValue exponent - places.length)

end HelpSheet.Json
