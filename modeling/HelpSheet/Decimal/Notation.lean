import HelpSheet.Decimal.Figures

/-!
# Written numbers

The ways to write a binary number in decimal: with a fixed number of places, with an exponent, in
the shorter of these ways, and in full, that is with the fewest digits that read back.
-/

set_option autoImplicit false
set_option relaxedAutoImplicit false

namespace HelpSheet.Decimal

/-- How numbers are written: with fixed places, with an exponent, or generally, which is one of the
two without needless zeros. -/
inductive Style
  | fixed
  | exponent
  | general
  deriving DecidableEq, Repr

/-- Several zeros. -/
def zeros (count : Nat) : List Char :=
  List.replicate count '0'

/-- Digits with a point before the last `places` of them. A point with nothing after it is only
written where it is asked for. -/
def pointed (places : Nat) (keepPoint : Bool) (digits : List Char) : List Char :=
  let digits := zeros (places + 1 - digits.length) ++ digits
  let whole := digits.take (digits.length - places)
  if places = 0 then whole ++ (if keepPoint then ['.'] else [])
  else whole ++ '.' :: digits.drop (digits.length - places)

/-- An exponent with its sign and at least two digits. -/
def exponentText (power : Int) : List Char :=
  let digits := Nat.toDigits 10 power.natAbs
  'e' :: (if power < 0 then '-' else '+') :: zeros (2 - digits.length) ++ digits

/-- A decimal without zeros at its end and without a point after which nothing is left. -/
def withoutNeedlessZeros (text : List Char) : List Char :=
  if text.contains '.' then
    ((text.reverse.dropWhile (· = '0')).dropWhile (· = '.')).reverse
  else text

/-- The number with `places` places. -/
def fixedText (places : Nat) (keepPoint : Bool) (mantissa : Nat) (exponent : Int) : List Char :=
  pointed places keepPoint (Nat.toDigits 10 (units places mantissa exponent))

/-- The figures that are written of a number with `places` digits after the first. -/
def figuresFor (places mantissa : Nat) (exponent : Int) : Figures :=
  significant (places + 1) mantissa exponent

/-- The power of ten that the first of the figures counts; zero counts ones. -/
def powerOf (figures : Figures) : Int :=
  if figures.digits = 0 then 0 else figures.lead

/-- The first figure, the point, and `places` more figures. -/
def leadingText (places : Nat) (keepPoint : Bool) (figures : Figures) : List Char :=
  let digits := figures.text
  pointed places keepPoint (digits ++ zeros (places + 1 - digits.length))

/-- The number with an exponent and `places` digits after the first. -/
def scientificText (places : Nat) (keepPoint : Bool) (mantissa : Nat) (exponent : Int) :
    List Char :=
  let figures := figuresFor places mantissa exponent
  leadingText places keepPoint figures ++ exponentText (powerOf figures)

/-- The least power of ten of the first digit that is written without an exponent. -/
def leastPlainPower : Int := -4

/-- The number with `count` digits, with an exponent only where the first digit counts a small power
of ten or one from `count` on. Needless zeros are kept where that is asked for. -/
def generalText (count : Nat) (keepZeros : Bool) (mantissa : Nat) (exponent : Int) : List Char :=
  let places := max count 1 - 1
  let figures := figuresFor places mantissa exponent
  let power := powerOf figures
  let trim (text : List Char) := if keepZeros then text else withoutNeedlessZeros text
  if leastPlainPower ≤ power && power ≤ places then
    trim (fixedText (places - power).toNat keepZeros mantissa exponent)
  else trim (leadingText places keepZeros figures) ++ exponentText power

/-- The words for what is not finite. -/
def Double.word : Double → List Char
  | .undefined => ['n', 'a', 'n']
  | _ => ['i', 'n', 'f']

/-- The magnitude of a number in a style, with a number of digits or places. -/
def Double.styled (style : Style) (count : Nat) (keep : Bool) : Double → List Char
  | .finite _ mantissa exponent =>
    match style with
    | .fixed => fixedText count keep mantissa exponent
    | .exponent => scientificText count keep mantissa exponent
    | .general => generalText count keep mantissa exponent
  | other => other.word

/-- The least power of ten of the first digit from which on numbers in full have an exponent. -/
def plainPowersEnd : Int := 16

/-- The magnitude in full. A whole number has one zero after its point. -/
def fullText (mantissa : Nat) (exponent : Int) : List Char :=
  let figures := shortest mantissa exponent
  let digits := figures.text
  let power := powerOf figures
  if leastPlainPower ≤ power && power < plainPowersEnd then
    if 0 ≤ figures.scale then digits ++ zeros figures.scale.toNat ++ ['.', '0']
    else pointed (-figures.scale).toNat false digits
  else leadingText (digits.length - 1) false figures ++ exponentText power

/-- A number in full. -/
def Double.text (number : Double) : String :=
  let magnitude :=
    match number with
    | .finite _ mantissa exponent => fullText mantissa exponent
    | other => other.word
  String.ofList (if number.isNegative then '-' :: magnitude else magnitude)

end HelpSheet.Decimal
