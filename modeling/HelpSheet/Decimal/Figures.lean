import HelpSheet.Decimal.Double

/-!
# Figures

The decimal digits that stand for a binary number: a given count of them, or as few as it takes to
read the number back. All arithmetic is exact.
-/

set_option autoImplicit false
set_option relaxedAutoImplicit false

namespace HelpSheet.Decimal

/-- The decimal `digits * 10 ^ scale`. -/
structure Figures where
  digits : Nat
  scale : Int
  deriving DecidableEq, Repr

namespace Figures

/-- The written digits. -/
def text (figures : Figures) : List Char :=
  Nat.toDigits 10 figures.digits

/-- The power of ten that the first digit counts. -/
def lead (figures : Figures) : Int :=
  figures.scale + figures.text.length - 1

/-- Moves zeros at the end of the digits into the scale. `fuel` bounds their number. -/
def withoutZeros (fuel : Nat) (figures : Figures) : Figures :=
  match fuel with
  | 0 => figures
  | fuel + 1 =>
    if figures.digits ≠ 0 && figures.digits % 10 = 0 then
      withoutZeros fuel ⟨figures.digits / 10, figures.scale + 1⟩
    else figures

end Figures

/-- The greatest power of ten that is not above `mantissa * 2 ^ exponent`, which is not zero. The
binary logarithm gives it up to one. -/
def leadOf (mantissa : Nat) (exponent : Int) : Int :=
  let estimate := ((mantissa.log2 + exponent) * 30103).fdiv 100000
  let reaches (power : Int) : Bool :=
    let (numerator, denominator) := fraction mantissa (-power) exponent
    denominator ≤ numerator
  if reaches (estimate + 1) then estimate + 1
  else if reaches estimate then estimate
  else estimate - 1

/-- The figures with `count` digits next to `mantissa * 2 ^ exponent`. -/
def significant (count mantissa : Nat) (exponent : Int) : Figures :=
  if mantissa = 0 then ⟨0, 0⟩
  else
    let scale := leadOf mantissa exponent - (count - 1 : Int)
    let (numerator, denominator) := fraction mantissa (-scale) exponent
    let digits := roundedQuotient numerator denominator
    if digits = Nat.pow 10 count then ⟨digits / 10, scale + 1⟩ else ⟨digits, scale⟩

/-- Of the two decimals of one scale that enclose the number, the one that reads back as the number;
of two such, the nearer, and of two that are equally near, the even one. -/
def readingBack? (mantissa : Nat) (exponent scale : Int) : Option Figures :=
  let (numerator, denominator) := fraction mantissa (-scale) exponent
  let below := numerator / denominator
  let readsBack (digits : Nat) : Bool :=
    Double.nearest false digits scale = .finite false mantissa exponent
  match readsBack below, readsBack (below + 1) with
  | true, true => some ⟨roundedQuotient numerator denominator, scale⟩
  | true, false => some ⟨below, scale⟩
  | false, true => some ⟨below + 1, scale⟩
  | false, false => none

/-- This many digits always read back. -/
def enoughDigits : Nat := 17

/-- The fewest figures that read back as `mantissa * 2 ^ exponent`. -/
def shortest (mantissa : Nat) (exponent : Int) : Figures :=
  if mantissa = 0 then ⟨0, 0⟩
  else
    let lead := leadOf mantissa exponent
    let found := (List.range enoughDigits).findSome? fun (more : Nat) ↦
      readingBack? mantissa exponent (lead - more)
    (found.getD (significant enoughDigits mantissa exponent)).withoutZeros enoughDigits

/-- The number of units in the decimal with `places` places next to `mantissa * 2 ^ exponent`. -/
def units (places mantissa : Nat) (exponent : Int) : Nat :=
  let (numerator, denominator) := fraction mantissa places exponent
  roundedQuotient numerator denominator

end HelpSheet.Decimal
