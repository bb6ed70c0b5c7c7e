import HelpSheet.Text.Printable

/-!
# Quoted text

Messages show foreign text between quotes, on one line and with printable characters only. Single
quotes are used unless the text holds a single quote and no double quote.
-/

set_option autoImplicit false
set_option relaxedAutoImplicit false

namespace HelpSheet.Text

/-- The lower-case hexadecimal digit of a number below sixteen. -/
def hexDigit (value : Nat) : Char :=
  Nat.digitChar (value % 16)

/-- The last `width` hexadecimal digits of a number. -/
def hexDigits : Nat → Nat → List Char
  | 0, _ => []
  | width + 1, value => hexDigits width (value / 16) ++ [hexDigit value]

/-- The quote that encloses a text: a double quote only where it saves an escape. -/
def enclosingQuote (text : List Char) : Char :=
  if text.contains '\x27' && !text.contains '\x22' then '\x22' else '\x27'

/-- A code point by its number, in the shortest of the three forms. -/
def numericEscape (codePoint : Nat) : List Char :=
  if codePoint < 0x100 then '\\' :: 'x' :: hexDigits 2 codePoint
  else if codePoint < 0x10000 then '\\' :: 'u' :: hexDigits 4 codePoint
  else '\\' :: 'U' :: hexDigits 8 codePoint

/-- One character of a text enclosed in `quote`. -/
def quoteChar (quote c : Char) : List Char :=
  if c = quote || c = '\\' then ['\\', c]
  else if c = '\n' then ['\\', 'n']
  else if c = '\r' then ['\\', 'r']
  else if c = '\t' then ['\\', 't']
  else if isPrintable c then [c]
  else numericEscape c.toNat

/-- The text between its quotes. -/
def quote (text : List Char) : List Char :=
  enclosingQuote text :: text.flatMap (quoteChar (enclosingQuote text)) ++ [enclosingQuote text]

/-- Quoting a string. -/
def quoted (text : String) : String :=
  String.ofList (quote text.toList)

end HelpSheet.Text
