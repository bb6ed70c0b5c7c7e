import HelpSheet.Text.Character

/-!
# Numerals

Numbers as people write them: with blanks around them, a sign, digits of any script and single
underscores between digits. Decimal numerals are read and written up to a length only.
-/

set_option autoImplicit false
set_option relaxedAutoImplicit false

namespace HelpSheet.Text.Numeral

/-! ### The limit -/

/-- The greatest length of a decimal numeral that is read or written. -/
def maxDigits : Nat := 4300

/-- A decimal numeral that is too long, with the number of its digits. -/
structure TooLong where
  limit : Nat
  digits : Nat
  deriving DecidableEq, Repr

def TooLong.message (fault : TooLong) : String :=
  "Exceeds the limit (" ++ toString fault.limit ++ " digits) for integer string conversion: " ++
    "value has " ++ toString fault.digits ++ " digits; " ++
    "use sys.set_int_max_str_digits() to increase the limit"

/-- The fault of a decimal numeral with the given number of digits, if it is too long. -/
def tooLong? (limit digits : Nat) : Option TooLong :=
  if digits ≤ limit then none else some ⟨limit, digits⟩

/-! ### Writing -/

/-- A number whose numeral would be too long. -/
structure TooGreat where
  limit : Nat
  deriving DecidableEq, Repr

def TooGreat.message (fault : TooGreat) : String :=
  "Exceeds the limit (" ++ toString fault.limit ++ " digits) for integer string conversion; " ++
    "use sys.set_int_max_str_digits() to increase the limit"

/-- A number with a numeral of at most the greatest length, its sign apart. -/
def IsShort (value : Int) : Prop :=
  value.natAbs < Nat.pow 10 maxDigits

instance (value : Int) : Decidable (IsShort value) :=
  inferInstanceAs (Decidable (_ < _))

/-- The decimal numeral of a number, unless it is too long. -/
def written? (value : Int) : Except TooGreat String :=
  if IsShort value then .ok (toString value) else .error ⟨maxDigits⟩

theorem written?_of_isShort {value : Int} (hvalue : IsShort value) :
    written? value = .ok (toString value) :=
  if_pos hvalue

theorem written?_of_not_isShort {value : Int} (hvalue : ¬ IsShort value) :
    written? value = .error ⟨maxDigits⟩ :=
  if_neg hvalue

theorem isShort_natCast {value : Nat} : IsShort value ↔ value < Nat.pow 10 maxDigits := by
  rw [IsShort, Int.natAbs_natCast]

theorem isShort_zero : IsShort 0 := by
  have hpower (count : Nat) : 0 < Nat.pow 10 count := Nat.pow_pos (by decide)
  exact hpower maxDigits

theorem isShort_iff_length_toDigits {value : Int} :
    IsShort value ↔ (Nat.toDigits 10 value.natAbs).length ≤ maxDigits := by
  have hlength (count : Nat) (hcount : 0 < count) :
      (Nat.toDigits 10 value.natAbs).length ≤ count ↔ value.natAbs < Nat.pow 10 count :=
    Nat.length_toDigits_le_iff (by decide) hcount
  exact (hlength maxDigits (by decide)).symm

/-- The least number that is too long. -/
theorem not_isShort_pow : ¬ IsShort (Nat.pow 10 maxDigits) := by
  rw [isShort_natCast]
  exact Nat.lt_irrefl _

/-! ### Whole numbers -/

/-- Whether a character may surround a numeral: of the controls in ASCII, only those that move the
place of writing. -/
def surrounds (c : Char) : Bool :=
  if c.toNat < 0x80 then c = ' ' || ('\t' ≤ c && c ≤ '\r') else isBlank c

/-- The text without what may surround a numeral. -/
def bare (text : List Char) : List Char :=
  (((text.dropWhile surrounds).reverse).dropWhile surrounds).reverse

/-- Whether the text begins with a minus sign, and the text after its sign. -/
def splitSign : List Char → Bool × List Char
  | '-' :: rest => (true, rest)
  | '+' :: rest => (false, rest)
  | text => (false, text)

/-- The value of a digit below the base: a decimal digit of any script, or a letter. -/
def digitValue? (base : Nat) (c : Char) : Option Nat :=
  let value :=
    if 'a' ≤ c && c ≤ 'z' then some (c.toNat - 87)
    else if 'A' ≤ c && c ≤ 'Z' then some (c.toNat - 55)
    else decimalValue? c
  value.filter (· < base)

/-- The letter that marks a base, if it has one. -/
def baseMark? : Nat → Option Char
  | 2 => some 'b'
  | 8 => some 'o'
  | 16 => some 'x'
  | _ => none

/-- The text after the mark of the base, if it begins with it; an underscore may follow the mark. -/
def withoutMark (base : Nat) (text : List Char) : List Char :=
  match text with
  | '0' :: letter :: rest =>
    if baseMark? base = some letter.toLower then
      match rest with
      | '_' :: after => after
      | _ => rest
    else text
  | _ => text

/-- Reads digits with single underscores between them, onto the value of those before. -/
def readDigits (base value : Nat) : List Char → Option Nat
  | [] => none
  | [c] => (digitValue? base c).map (base * value + ·)
  | c :: '_' :: rest =>
    (digitValue? base c).bind fun digit ↦ readDigits base (base * value + digit) rest
  | c :: rest => (digitValue? base c).bind fun digit ↦ readDigits base (base * value + digit) rest

/-- The whole number that a text spells in a base. -/
def readWhole (base : Nat) (text : List Char) : Option Int :=
  let (negative, rest) := splitSign (bare text)
  (readDigits base 0 (withoutMark base rest)).map fun magnitude ↦
    if negative then -magnitude else magnitude

/-! ### Numbers with fractions -/

/-- The text after the decimal digits at its front. -/
def afterDigits (text : List Char) : List Char :=
  text.dropWhile fun c ↦ (decimalValue? c).isSome

/-- Whether the text is an exponent with its letter and perhaps a sign. -/
def isExponent : List Char → Bool
  | [] => true
  | letter :: rest =>
    let digits := (splitSign rest).2
    (letter = 'e' || letter = 'E') && !digits.isEmpty && (afterDigits digits).isEmpty

/-- The words for numbers that are not finite. -/
def boundlessWords : List String :=
  ["inf", "infinity", "nan"]

/-- Whether a text without underscores spells a number with a fraction, an exponent, both or
neither. -/
def isReal (text : List Char) : Bool :=
  let unsigned := (splitSign (bare text)).2
  let rest := afterDigits unsigned
  if boundlessWords.contains (String.ofList (unsigned.map Char.toLower)) then true
  else
    match rest with
    | '.' :: fraction =>
      let after := afterDigits fraction
      (rest.length < unsigned.length || after.length < fraction.length) && isExponent after
    | _ => rest.length < unsigned.length && isExponent rest

end HelpSheet.Text.Numeral
