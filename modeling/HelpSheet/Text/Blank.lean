/-!
# Blanks and lines

The characters that count as white space wherever text is trimmed or a sentence is closed, and
trimming on both sides. A line of a text file ends with a line feed, a carriage return, or the two
in this order; reading a file turns each of the three into one line feed.
-/

set_option autoImplicit false
set_option relaxedAutoImplicit false

namespace HelpSheet.Text

/-! ### Blanks -/

/-- The blank code points, as ranges: controls that separate, and the space separators. -/
def blankRanges : List (Nat × Nat) :=
  [(0x09, 0x0d), (0x1c, 0x20), (0x85, 0x85), (0xa0, 0xa0), (0x1680, 0x1680), (0x2000, 0x200a),
   (0x2028, 0x2029), (0x202f, 0x202f), (0x205f, 0x205f), (0x3000, 0x3000)]

/-- Whether a code point lies in one of the ranges, both ends included. -/
def inRanges (ranges : List (Nat × Nat)) (codePoint : Nat) : Bool :=
  ranges.any fun range ↦ range.1 ≤ codePoint && codePoint ≤ range.2

/-- Whether a character is white space. -/
def isBlank (c : Char) : Bool :=
  inRanges blankRanges c.toNat

/-- The text without the blanks at its end. -/
def trimEnd (text : List Char) : List Char :=
  (text.reverse.dropWhile isBlank).reverse

/-- The text without the blanks at its two ends. -/
def trim (text : List Char) : List Char :=
  trimEnd (text.dropWhile isBlank)

/-- Trimming a string. -/
def trimmed (text : String) : String :=
  String.ofList (trim text.toList)

/-! ### Lines -/

/-- The text with every line ending written as a line feed. -/
def unifyLineEndings : List Char → List Char
  | '\r' :: '\n' :: rest => '\n' :: unifyLineEndings rest
  | '\r' :: rest => '\n' :: unifyLineEndings rest
  | c :: rest => c :: unifyLineEndings rest
  | [] => []

/-- The strings with `separator` between each two of them. -/
def joinWith (separator : String) (parts : List String) : String :=
  String.intercalate separator parts

/-- The text cut at every occurrence of `separator`; one piece more than there are occurrences. -/
def splitOnChar (separator : Char) : List Char → List (List Char)
  | [] => [[]]
  | c :: rest =>
    if c = separator then [] :: splitOnChar separator rest
    else
      match splitOnChar separator rest with
      | [] => [[c]]
      | piece :: pieces => (c :: piece) :: pieces

end HelpSheet.Text
