/-!
# Binary numbers

The numbers of double precision: a natural number times a power of two, the two infinities, and what
is no number at all. A decimal stands for the binary number next to it; of two that are equally
near, for the one with the even mantissa.
-/

set_option autoImplicit false
set_option relaxedAutoImplicit false

namespace HelpSheet.Decimal

/-- The quotient as a natural number: the nearest one, and of two that are equally near, the even
one. -/
def roundedQuotient (numerator denominator : Nat) : Nat :=
  let quotient := numerator / denominator
  let twice := 2 * (numerator % denominator)
  if twice < denominator || (twice = denominator && quotient % 2 = 0) then quotient
  else quotient + 1

/-- A number of the form `value * 10 ^ tens * 2 ^ twos` as a fraction of natural numbers. -/
def fraction (value : Nat) (tens twos : Int) : Nat × Nat :=
  (value * Nat.pow 10 tens.toNat * Nat.pow 2 twos.toNat,
    Nat.pow 10 (-tens).toNat * Nat.pow 2 (-twos).toNat)

/-- A number of double precision. A finite one is the mantissa times two to the exponent. -/
inductive Double
  | finite (negative : Bool) (mantissa : Nat) (exponent : Int)
  | infinite (negative : Bool)
  | undefined
  deriving DecidableEq, Repr

namespace Double

/-- The mantissas have this many bits, apart from those of the smallest numbers. -/
def precision : Nat := 53

/-- The exponent of the smallest numbers. -/
def leastExponent : Int := -1074

/-- The exponent of the greatest numbers. -/
def greatestExponent : Int := 971

/-- Every number from this power of ten on is infinite. -/
def infiniteScale : Int := 310

/-- Every number below this power of ten is zero. -/
def zeroScale : Int := -330

def zero (negative : Bool) : Double :=
  finite negative 0 leastExponent

/-- The number with the given mantissa and exponent; the mantissa may have one bit too many, if it
is even. -/
def settle (negative : Bool) (mantissa : Nat) (exponent : Int) : Double :=
  let (mantissa, exponent) :=
    if mantissa = Nat.pow 2 precision then (mantissa / 2, exponent + 1) else (mantissa, exponent)
  if greatestExponent < exponent then infinite negative else finite negative mantissa exponent

/-- The exponent for the mantissa of a fraction: such that the mantissa has all its bits, or the
least one. -/
def exponentFor (numerator denominator : Nat) : Int :=
  let estimate : Int := (numerator.log2 : Int) - denominator.log2 - precision
  let exponent := max estimate leastExponent
  let (above, below) := fraction numerator 0 (-exponent)
  if above / (below * denominator) < Nat.pow 2 precision then exponent else exponent + 1

/-- The number next to the decimal `digits * 10 ^ scale`. -/
def nearest (negative : Bool) (digits : Nat) (scale : Int) : Double :=
  let length : Int := (Nat.toDigits 10 digits).length
  if digits = 0 || scale + length ≤ zeroScale then zero negative
  else if infiniteScale < scale + length then infinite negative
  else
    let (numerator, denominator) := fraction digits scale 0
    let exponent := exponentFor numerator denominator
    let (above, below) := fraction numerator 0 (-exponent)
    settle negative (roundedQuotient above (below * denominator)) exponent

/-- The number next to a whole number, unless it is infinite. -/
def ofInt? (value : Int) : Option Double :=
  match nearest (value < 0) value.natAbs 0 with
  | finite negative mantissa exponent => some (finite negative mantissa exponent)
  | _ => none

/-- Whether a number has a minus sign. -/
def isNegative : Double → Bool
  | finite negative _ _ => negative
  | infinite negative => negative
  | undefined => false

/-- The whole number next to a finite number on the side of zero. -/
def truncated? : Double → Option Int
  | finite negative mantissa exponent =>
    let (numerator, denominator) := fraction mantissa 0 exponent
    let magnitude : Int := (numerator / denominator : Nat)
    some (if negative then -magnitude else magnitude)
  | _ => none

end Double

end HelpSheet.Decimal
