import HelpSheet.Text.Blank

/-!
# Digits and letter case

The decimal digits of all scripts spell numbers; further characters count as digits (superscripts,
circled digits and their like) but spell none.

Names are compared after a change of case with words made of ASCII letters. What matters is which
characters turn into ASCII letters: besides the ASCII letters themselves, one sign does when the
text is lowered and ten do when it is raised, some of them into several letters. Every other
character stays different from every ASCII letter and is left alone.
-/

set_option autoImplicit false
set_option relaxedAutoImplicit false

namespace HelpSheet.Text

/-! ### Digits -/

/-- The zero of every run of ten decimal digits. -/
def decimalZeros : List Nat :=
  [0x30, 0x660, 0x6f0, 0x7c0, 0x966, 0x9e6, 0xa66, 0xae6, 0xb66, 0xbe6, 0xc66, 0xce6, 0xd66,
   0xde6, 0xe50, 0xed0, 0xf20, 0x1040, 0x1090, 0x17e0, 0x1810, 0x1946, 0x19d0, 0x1a80, 0x1a90,
   0x1b50, 0x1bb0, 0x1c40, 0x1c50, 0xa620, 0xa8d0, 0xa900, 0xa9d0, 0xa9f0, 0xaa50, 0xabf0, 0xff10,
   0x104a0, 0x10d30, 0x11066, 0x110f0, 0x11136, 0x111d0, 0x112f0, 0x11450, 0x114d0, 0x11650,
   0x116c0, 0x11730, 0x118e0, 0x11950, 0x11c50, 0x11d50, 0x11da0, 0x16a60, 0x16ac0, 0x16b50,
   0x1d7ce, 0x1d7d8, 0x1d7e2, 0x1d7ec, 0x1d7f6, 0x1e140, 0x1e2f0, 0x1e950, 0x1fbf0]

/-- Digits that do not take part in decimal numbers. -/
def otherDigitRanges : List (Nat × Nat) :=
  [(0xb2, 0xb3), (0xb9, 0xb9), (0x1369, 0x1371), (0x19da, 0x19da), (0x2070, 0x2070),
   (0x2074, 0x2079), (0x2080, 0x2089), (0x2460, 0x2468), (0x2474, 0x247c), (0x2488, 0x2490),
   (0x24ea, 0x24ea), (0x24f5, 0x24fd), (0x24ff, 0x24ff), (0x2776, 0x277e), (0x2780, 0x2788),
   (0x278a, 0x2792), (0x10a40, 0x10a43), (0x10e60, 0x10e68), (0x11052, 0x1105a),
   (0x1f100, 0x1f10a)]

/-- The value of a decimal digit. -/
def decimalValue? (c : Char) : Option Nat :=
  (decimalZeros.find? fun start ↦ start ≤ c.toNat && c.toNat < start + 10).map fun start ↦
    c.toNat - start

/-- Whether a character is a digit, decimal or not. -/
def isDigit (c : Char) : Bool :=
  (decimalValue? c).isSome || inRanges otherDigitRanges c.toNat

/-- Reads a number in decimal digits of any script; fails at the first character that is none. -/
def readDecimal (value : Nat) : List Char → Option Nat
  | [] => some value
  | c :: rest =>
    match decimalValue? c with
    | some digit => readDecimal (10 * value + digit) rest
    | none => none

/-! ### Letter case -/

/-- The lower-case letter of `A` to `Z` and of the Kelvin sign; other characters are unchanged. -/
def lowerChar (c : Char) : Char :=
  if c = '\u212a' then 'k' else c.toLower

/-- The text with every letter that has an ASCII lower case in lower case. -/
def lower (text : List Char) : List Char :=
  text.map lowerChar

/-- The upper-case letters of `a` to `z`, of the dotless i, of the long and the sharp s and of the
Latin ligatures; other characters are unchanged. -/
def upperChar (c : Char) : List Char :=
  match c with
  | '\u00df' => ['S', 'S']
  | '\u0131' => ['I']
  | '\u017f' => ['S']
  | '\ufb00' => ['F', 'F']
  | '\ufb01' => ['F', 'I']
  | '\ufb02' => ['F', 'L']
  | '\ufb03' => ['F', 'F', 'I']
  | '\ufb04' => ['F', 'F', 'L']
  | '\ufb05' => ['S', 'T']
  | '\ufb06' => ['S', 'T']
  | _ => [c.toUpper]

/-- The text with every letter that has an ASCII upper case in upper case. -/
def upper (text : List Char) : List Char :=
  text.flatMap upperChar

/-- Lowering a string. -/
def lowered (text : String) : String :=
  String.ofList (lower text.toList)

end HelpSheet.Text
