/-!
# Glyphs

The characters of marked-up text as an author writes them. Seven characters take part in markup;
each of them stands for itself when a backslash precedes it. Reading text as glyphs settles which
backslashes escape something, so the rest of the reader never looks at them again:
`Glyph.source_ofText` says that no character is lost.
-/

set_option autoImplicit false
set_option relaxedAutoImplicit false

namespace HelpSheet.Markup

/-- The opening and closing mark of a code span. -/
def codeMark : Char := '\x60'

/-- Whether a backslash before the character takes away its role in markup. -/
def isEscapable (c : Char) : Bool :=
  c = codeMark || c = '*' || c = '[' || c = ']' || c = '(' || c = ')' || c = '\\'

/-- A character of the text, and whether it is written behind a backslash. -/
structure Glyph where
  char : Char
  escaped : Bool
  deriving DecidableEq, Repr

namespace Glyph

/-- A character written without a backslash. -/
def bare (c : Char) : Glyph :=
  ⟨c, false⟩

/-- The characters that a glyph takes in the source. -/
def spelling (glyph : Glyph) : List Char :=
  if glyph.escaped then ['\\', glyph.char] else [glyph.char]

/-- Reads text as glyphs. A backslash before any other character, or at the end, is a glyph of its
own. -/
def ofText : List Char → List Glyph
  | [] => []
  | [c] => [bare c]
  | c :: next :: rest =>
    if c = '\\' && isEscapable next then ⟨next, true⟩ :: ofText rest
    else bare c :: ofText (next :: rest)

/-- The source of a sequence of glyphs. -/
def source (glyphs : List Glyph) : List Char :=
  glyphs.flatMap spelling

/-- The text that the glyphs stand for. -/
def text (glyphs : List Glyph) : String :=
  String.ofList (glyphs.map char)

/-- Reading text as glyphs loses nothing. -/
theorem source_ofText (chars : List Char) : source (ofText chars) = chars := by
  fun_induction ofText chars with
  | case1 => rfl
  | case2 => rfl
  | case3 c next rest h ih =>
    simp only [source, List.flatMap_cons, spelling, if_true] at ih ⊢
    simp_all
  | case4 c next rest h ih =>
    simp only [source, List.flatMap_cons, spelling, bare] at ih ⊢
    simp_all

end Glyph

/-- The text with a backslash before every character that takes part in markup. -/
def escapeLiteral (text : List Char) : List Char :=
  text.flatMap fun c ↦ if isEscapable c then ['\\', c] else [c]

/-- Literal text as a string of markup. -/
def literal (text : String) : String :=
  String.ofList (escapeLiteral text.toList)

end HelpSheet.Markup
