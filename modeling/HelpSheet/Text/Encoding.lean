import HelpSheet.Text.Quoted

/-!
# Encodings

A text can be written in an encoding that has all its characters (`Encoding.fault?`). Texts may hold
lone surrogates, which no encoding has and which are no characters: each of them is kept as the
private character that stands for it. Which block of private characters does so is chosen with a
view to the texts at hand, so that these do not hold any of them otherwise (`Surrogates`).
-/

set_option autoImplicit false
set_option relaxedAutoImplicit false

namespace HelpSheet.Text

/-! ### Lone surrogates -/

/-- A block of private characters that stand for the lone surrogates, in their order. -/
structure Surrogates where
  first : Nat
  isPrivate : 0xf0000 ≤ first ∧ first + 0x800 ≤ 0x110000

namespace Surrogates

/-- The block that is taken unless the texts at hand hold one of its characters. -/
def standard : Surrogates where
  first := 0x10f000
  isPrivate := by decide

/-- The character that stands for a surrogate. -/
def standIn (surrogates : Surrogates) (unit : Nat) : Char :=
  Char.ofNat (surrogates.first + (unit - 0xd800))

/-- Whether a character stands for a surrogate. -/
def isStandIn (surrogates : Surrogates) (c : Char) : Bool :=
  surrogates.first ≤ c.toNat && c.toNat < surrogates.first + 0x800

/-- The code point that a character is or stands for. -/
def codePoint (surrogates : Surrogates) (c : Char) : Nat :=
  if surrogates.isStandIn c then c.toNat - surrogates.first + 0xd800 else c.toNat

end Surrogates

/-! ### Encodings -/

/-- Which characters can be written, why others cannot, and the code points that messages show. -/
structure Encoding where
  name : String
  holds : Char → Bool
  reason : String
  codePoint : Char → Nat

namespace Encoding

/-- UTF-8 has every character but those that stand for surrogates. -/
def utf8 (surrogates : Surrogates) : Encoding where
  name := "utf-8"
  holds c := !surrogates.isStandIn c
  reason := "surrogates not allowed"
  codePoint := surrogates.codePoint

/-- ASCII has the first half of the characters of one byte. -/
def ascii (surrogates : Surrogates) : Encoding where
  name := "ascii"
  holds c := c.toNat < 0x80
  reason := "ordinal not in range(128)"
  codePoint := surrogates.codePoint

/-- The first characters of a text that an encoding has not got: the offset of the first one, its
code point, and how many they are. -/
structure Fault where
  encoding : String
  offset : Nat
  codePoint : Nat
  length : Nat
  reason : String
  deriving DecidableEq, Repr

def Fault.message (fault : Fault) : String :=
  Text.quoted fault.encoding ++ " codec can't encode " ++
    (if fault.length = 1 then
      "character '" ++ String.ofList (numericEscape fault.codePoint) ++ "' in position " ++
        toString fault.offset
    else
      "characters in position " ++ toString fault.offset ++ "-" ++
        toString (fault.offset + fault.length - 1)) ++
    ": " ++ fault.reason

/-- What keeps a text from being written in an encoding, if anything does. -/
def fault? (encoding : Encoding) (text : String) : Option Fault :=
  match text.toList.dropWhile encoding.holds with
  | [] => none
  | c :: rest =>
    some
      { encoding := encoding.name
        offset := (text.toList.takeWhile encoding.holds).length
        codePoint := encoding.codePoint c
        length := (rest.takeWhile fun c ↦ !encoding.holds c).length + 1
        reason := encoding.reason }

/-- Whether a text can be written in an encoding. -/
def CanWrite (encoding : Encoding) (text : String) : Prop :=
  ∀ c ∈ text.toList, encoding.holds c = true

instance (encoding : Encoding) (text : String) : Decidable (encoding.CanWrite text) :=
  inferInstanceAs (Decidable (∀ _ ∈ _, _))

end Encoding

end HelpSheet.Text
